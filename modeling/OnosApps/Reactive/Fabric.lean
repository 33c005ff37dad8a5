import OnosApps.Runs.Count

/-!
# Rules on demand

A controller issues rules for the frames it is shown, and may send something itself. The fabric
forwards a frame itself if an installed rule takes it, and shows it to the controller otherwise. A
rule is installed at some time after it is issued, and may be lost and installed again; frames and
other events of the controller can come at any time in between. This module has the rules by which
properties of the controller alone become properties of the controller and the fabric together.

## Main definitions

* `Controller`: a system that issues rules, and the frames its rules take
* `Fabric`, `FabricEvent`, `fabricNext`: the controller at work
* `shown`: the frame that an event shows to the controller
* `Opening`: the controller is shown a frame with which it opens a flow
* `Prompt`: every issued rule is installed when the controller is shown a frame

## Main results

* `exists_run`: the controller goes through a run of its own events
* `fabricNext_frame_of_takes`: a frame that an installed rule takes
* `controller_invariant`: what every event keeps holds of the controller in the fabric
* `forwarded_run`: every frame that was forwarded was taken by an issued rule
* `sent_invariant`: what holds of all that the controller has sent
* `countSteps_opening_le_one`: with prompt installation, a flow is opened once
-/

namespace Reactive

open Runs

variable {σ ε ν φ ρ κ : Type*}

/-- A controller with states `σ` and events `ε`, in an environment `ν` that its handler of frames
reads. Rules are only ever added to those issued. -/
structure Controller (σ ε ν φ ρ κ : Type*) where
  next : σ → ε → σ
  /-- The event by which the controller is shown a frame. -/
  packetIn : ν → φ → ε
  /-- The frame that an event shows, if it is such an event. -/
  frame? : ε → Option (ν × φ)
  /-- What the controller sends out itself when it handles an event. -/
  sends : σ → ε → List κ
  issued : σ → List ρ
  takes : ρ → φ → Bool
  eq_packetIn : ∀ e, ∀ x ∈ frame? e, e = packetIn x.1 x.2
  issued_next : ∀ c e, issued c ⊆ issued (next c e)

/-- The controller, the rules that are installed, the frames that were forwarded, each with the
rule that took it, and what the controller has sent. -/
structure Fabric (σ φ ρ κ : Type*) where
  controller : σ
  installed : List ρ
  forwarded : List (φ × ρ)
  sent : List κ

/-- The fabric before anything is installed. -/
def Fabric.start (c : σ) : Fabric σ φ ρ κ := ⟨c, [], [], []⟩

/-- An event of the controller, the installation or the loss of a rule, or a frame. -/
inductive FabricEvent (ε ν φ ρ : Type*) where
  | handle (e : ε)
  | install (r : ρ)
  | lose (r : ρ)
  | frame (env : ν) (f : φ)

namespace Controller

variable (C : Controller σ ε ν φ ρ κ)

/-- The event that the controller may be shown. -/
def offered : FabricEvent ε ν φ ρ → Option ε
  | .handle e => some e
  | .frame env f => some (C.packetIn env f)
  | .install _ => none
  | .lose _ => none

/-- The installed rule that takes the frame. -/
def taker (s : Fabric σ φ ρ κ) (f : φ) : Option ρ := s.installed.find? (C.takes · f)

variable {C} in
theorem taker_eq_some {s : Fabric σ φ ρ κ} {f : φ} {r : ρ} (h : C.taker s f = some r) :
    r ∈ s.installed ∧ C.takes r f = true :=
  ⟨List.mem_of_find?_eq_some h, List.find?_some (p := (C.takes · f)) h⟩

variable {C} in
theorem taker_eq_none_iff {s : Fabric σ φ ρ κ} {f : φ} :
    C.taker s f = none ↔ ∀ r ∈ s.installed, C.takes r f = false := by
  simp [taker]

/-- The controller handles the event. -/
def handling (s : Fabric σ φ ρ κ) (e : ε) : Fabric σ φ ρ κ :=
  { s with controller := C.next s.controller e, sent := s.sent ++ C.sends s.controller e }

variable [DecidableEq ρ]

/-- One event of the fabric. -/
def fabricNext (s : Fabric σ φ ρ κ) : FabricEvent ε ν φ ρ → Fabric σ φ ρ κ
  | .handle e => C.handling s e
  | .install r => if r ∈ C.issued s.controller then { s with installed := r :: s.installed } else s
  | .lose r => { s with installed := s.installed.filter (· ≠ r) }
  | .frame env f =>
    match C.taker s f with
    | some r => { s with forwarded := s.forwarded ++ [(f, r)] }
    | none => C.handling s (C.packetIn env f)

variable {C} {s : Fabric σ φ ρ κ} {f : φ} {r : ρ}

/-! ## One event -/

/-- A frame that an installed rule takes is forwarded, by such a rule, and the controller is not
shown it. -/
theorem fabricNext_frame_of_takes (env : ν) (hr : r ∈ s.installed) (htakes : C.takes r f = true) :
    ∃ r' ∈ s.installed, C.takes r' f = true ∧
      C.fabricNext s (.frame env f) = { s with forwarded := s.forwarded ++ [(f, r')] } := by
  cases h : C.taker s f with
  | none => exact absurd htakes (by rw [taker_eq_none_iff.mp h r hr]; decide)
  | some r' =>
    obtain ⟨hmem, htakes'⟩ := taker_eq_some h
    exact ⟨r', hmem, htakes', by rw [fabricNext, h]⟩

/-- The controller is shown an event that it may be shown, or is left alone. -/
theorem controller_fabricNext (s : Fabric σ φ ρ κ) (e : FabricEvent ε ν φ ρ) :
    (C.fabricNext s e).controller = s.controller ∨
      ∃ e' ∈ C.offered e, (C.fabricNext s e).controller = C.next s.controller e' := by
  cases e with
  | handle e => exact .inr ⟨e, rfl, rfl⟩
  | install r =>
    left
    rw [fabricNext]
    split_ifs <;> rfl
  | lose r => exact .inl rfl
  | frame env f =>
    rw [fabricNext]
    cases C.taker s f with
    | none => exact .inr ⟨_, rfl, rfl⟩
    | some r => exact .inl rfl

theorem issued_fabricNext (s : Fabric σ φ ρ κ) (e : FabricEvent ε ν φ ρ) :
    C.issued s.controller ⊆ C.issued (C.fabricNext s e).controller := by
  rcases C.controller_fabricNext s e with h | ⟨e', -, h⟩ <;> rw [h]
  · exact List.Subset.refl _
  · exact C.issued_next _ _

/-- A rule that is installed after an event was installed before or is issued. -/
theorem mem_installed_fabricNext {e : FabricEvent ε ν φ ρ}
    (h : r ∈ (C.fabricNext s e).installed) : r ∈ s.installed ∨ r ∈ C.issued s.controller := by
  cases e with
  | handle e => exact .inl h
  | install r' =>
    rw [fabricNext] at h
    split_ifs at h with hissued
    · rcases List.mem_cons.mp h with rfl | h
      · exact .inr hissued
      · exact .inl h
    · exact .inl h
  | lose r' => exact .inl (List.mem_of_mem_filter h)
  | frame env f =>
    rw [fabricNext] at h
    cases htaker : C.taker s f with
    | none =>
      rw [htaker] at h
      exact .inl h
    | some r' =>
      rw [htaker] at h
      exact .inl h

/-- A frame that is forwarded by an event is taken by a rule that is installed. -/
theorem mem_forwarded_fabricNext {e : FabricEvent ε ν φ ρ}
    (h : (f, r) ∈ (C.fabricNext s e).forwarded) :
    (f, r) ∈ s.forwarded ∨ r ∈ s.installed ∧ C.takes r f = true := by
  cases e with
  | handle e => exact .inl h
  | install r' =>
    rw [fabricNext] at h
    split_ifs at h <;> exact .inl h
  | lose r' => exact .inl h
  | frame env f' =>
    rw [fabricNext] at h
    cases htaker : C.taker s f' with
    | none =>
      rw [htaker] at h
      exact .inl h
    | some r' =>
      rw [htaker] at h
      rcases List.mem_append.mp h with h | h
      · exact .inl h
      · cases List.mem_singleton.mp h
        exact .inr (taker_eq_some htaker)

/-- What is sent by an event, the controller sends when it handles it. -/
theorem mem_sent_fabricNext {e : FabricEvent ε ν φ ρ} {x : κ}
    (h : x ∈ (C.fabricNext s e).sent) :
    x ∈ s.sent ∨ ∃ e' ∈ C.offered e, x ∈ C.sends s.controller e' ∧
      (C.fabricNext s e).controller = C.next s.controller e' := by
  cases e with
  | handle e =>
    rcases List.mem_append.mp h with h | h
    · exact .inl h
    · exact .inr ⟨e, rfl, h, rfl⟩
  | install r' =>
    rw [fabricNext] at h
    split_ifs at h <;> exact .inl h
  | lose r' => exact .inl h
  | frame env f =>
    rw [fabricNext] at h ⊢
    cases htaker : C.taker s f with
    | some r' =>
      rw [htaker] at h
      exact .inl h
    | none =>
      rw [htaker] at h
      rcases List.mem_append.mp h with h | h
      · exact .inl h
      · exact .inr ⟨_, rfl, h, rfl⟩

/-! ## Whole runs -/

variable (C)

/-- **The controller goes through a run of its own events**: those it may be shown, in their
order, without the frames that the fabric forwards itself. -/
theorem exists_run (s : Fabric σ φ ρ κ) (es : List (FabricEvent ε ν φ ρ)) :
    ∃ es', List.Sublist es' (es.filterMap C.offered) ∧
      (run C.fabricNext s es).controller = run C.next s.controller es' := by
  induction es using List.reverseRecOn with
  | nil => exact ⟨[], List.Sublist.refl _, rfl⟩
  | append_singleton es e ih =>
    obtain ⟨es', hsub, hrun⟩ := ih
    rw [run_snoc, List.filterMap_append]
    rcases C.controller_fabricNext (run C.fabricNext s es) e with h | ⟨e', he', h⟩
    · exact ⟨es', hsub.trans (List.sublist_append_left _ _), h.trans hrun⟩
    · refine ⟨es' ++ [e'], hsub.append ?_, by rw [h, hrun, run_snoc]⟩
      rw [List.filterMap_cons, he', List.filterMap_nil]

/-- What is issued stays issued. -/
theorem issued_run (s : Fabric σ φ ρ κ) (es : List (FabricEvent ε ν φ ρ)) :
    C.issued s.controller ⊆ C.issued (run C.fabricNext s es).controller :=
  run_invariant (P := fun t : Fabric σ φ ρ κ => C.issued s.controller ⊆ C.issued t.controller)
    (fun t e ht => List.Subset.trans ht (C.issued_fabricNext t e)) (List.Subset.refl _) es

/-- Every event that the controller may be shown meets `A`. -/
def Admitted (A : ε → Prop) (e : FabricEvent ε ν φ ρ) : Prop := ∀ e' ∈ C.offered e, A e'

variable {C} {A : ε → Prop} {P : σ → Prop} {es : List (FabricEvent ε ν φ ρ)}

/-- One step: what every admitted event keeps holds of the controller. -/
theorem invariant_fabricNext (hstep : ∀ c e, P c → A e → P (C.next c e)) (hs : P s.controller)
    {e : FabricEvent ε ν φ ρ} (he : C.Admitted A e) : P (C.fabricNext s e).controller := by
  rcases C.controller_fabricNext s e with h | ⟨e', he', h⟩ <;> rw [h]
  · exact hs
  · exact hstep _ _ hs (he e' he')

/-- **The invariant rule for the controller**: what every admitted event keeps holds of the
controller in the fabric. -/
theorem controller_invariant (hstep : ∀ c e, P c → A e → P (C.next c e)) (hs : P s.controller)
    (hes : ∀ e ∈ es, C.Admitted A e) : P (run C.fabricNext s es).controller :=
  (along_of_forall hes).run_invariant (P := fun s : Fabric σ φ ρ κ => P s.controller)
    (fun _ _ ht he => invariant_fabricNext hstep ht he) hs

/-- One step: only issued rules are installed. -/
theorem installed_fabricNext (hs : s.installed ⊆ C.issued s.controller)
    (e : FabricEvent ε ν φ ρ) :
    (C.fabricNext s e).installed ⊆ C.issued (C.fabricNext s e).controller := by
  intro r hr
  rcases mem_installed_fabricNext hr with hr | hr
  · exact C.issued_fabricNext s e (hs hr)
  · exact C.issued_fabricNext s e hr

/-- Only issued rules are installed. -/
theorem installed_run (c : σ) (es : List (FabricEvent ε ν φ ρ)) :
    (run C.fabricNext (Fabric.start c) es).installed ⊆
      C.issued (run C.fabricNext (Fabric.start c) es).controller :=
  run_invariant (P := fun s : Fabric σ φ ρ κ => s.installed ⊆ C.issued s.controller)
    (fun _ e ht => installed_fabricNext ht e) (List.nil_subset _) es

/-- **Only issued rules forward**: every frame that was forwarded was taken by an issued rule. -/
theorem forwarded_run (c : σ) (es : List (FabricEvent ε ν φ ρ)) :
    ∀ x ∈ (run C.fabricNext (Fabric.start c) es).forwarded,
      x.2 ∈ C.issued (run C.fabricNext (Fabric.start c) es).controller ∧
        C.takes x.2 x.1 = true := by
  induction es using List.reverseRecOn with
  | nil => exact fun x hx => nomatch hx
  | append_singleton es e ih =>
    rintro ⟨f, r⟩ hx
    rw [run_snoc] at hx ⊢
    rcases mem_forwarded_fabricNext hx with hx | ⟨hr, htakes⟩
    · obtain ⟨hissued, htakes⟩ := ih _ hx
      exact ⟨C.issued_fabricNext _ e hissued, htakes⟩
    · exact ⟨C.issued_fabricNext _ e (installed_run c es hr), htakes⟩

/-- **What the controller has sent.** Let `P` be kept by the admitted events. What holds of
everything that the controller sends in a state with `P`, and is kept by every event, holds of all
that it has sent. -/
theorem sent_invariant {Q : σ → κ → Prop} (hstep : ∀ c e, P c → A e → P (C.next c e))
    (hkept : ∀ c e x, Q c x → Q (C.next c e) x)
    (hsends : ∀ c e, P c → A e → ∀ x ∈ C.sends c e, Q (C.next c e) x) {c : σ} (hc : P c)
    (hes : ∀ e ∈ es, C.Admitted A e) :
    ∀ x ∈ (run C.fabricNext (Fabric.start c) es).sent,
      Q (run C.fabricNext (Fabric.start c) es).controller x := by
  have halong : Along C.fabricNext (fun _ e => C.Admitted A e) (Fabric.start c) es :=
    along_of_forall hes
  refine (halong.run_invariant
    (P := fun s : Fabric σ φ ρ κ => P s.controller ∧ ∀ x ∈ s.sent, Q s.controller x)
    (fun t e ht he => ?_) ⟨hc, fun x hx => nomatch hx⟩).2
  refine ⟨invariant_fabricNext hstep ht.1 he, fun x hx => ?_⟩
  rcases mem_sent_fabricNext hx with hx | ⟨e', he', hx, hnext⟩
  · rcases C.controller_fabricNext t e with hnext | ⟨e', -, hnext⟩ <;> rw [hnext]
    · exact ht.2 x hx
    · exact hkept _ _ x (ht.2 x hx)
  · rw [hnext]
    exact hsends _ _ ht.1 (he e' he') x hx

/-! ## Flows that are opened once -/

section Opening

variable (C)

/-- The frame that an event shows to the controller: one that comes in and that no installed rule
takes, or one that the controller handles otherwise. -/
def shown (s : Fabric σ φ ρ κ) : FabricEvent ε ν φ ρ → Option (ν × φ)
  | .handle e => C.frame? e
  | .frame env f => if C.taker s f = none then some (env, f) else none
  | .install _ => none
  | .lose _ => none

/-- The controller is shown a frame of the flow, in a state in which it opens the flow. -/
def Opening (flow : φ → Prop) (opens : σ → ν → φ → Prop) (s : Fabric σ φ ρ κ)
    (e : FabricEvent ε ν φ ρ) : Prop :=
  ∃ x ∈ C.shown s e, flow x.2 ∧ opens s.controller x.1 x.2

instance (flow : φ → Prop) [DecidablePred flow] (opens : σ → ν → φ → Prop)
    [∀ c env, DecidablePred (opens c env)] (s : Fabric σ φ ρ κ) :
    DecidablePred (C.Opening flow opens s) := fun _ =>
  inferInstanceAs (Decidable (∃ x ∈ _, _))

/-- When the controller is shown a frame, every rule that is issued is installed, and none of them
takes the frame. -/
def Prompt (s : Fabric σ φ ρ κ) (e : FabricEvent ε ν φ ρ) : Prop :=
  ∀ x ∈ C.shown s e, C.issued s.controller ⊆ s.installed ∧ C.taker s x.2 = none

instance (s : Fabric σ φ ρ κ) : DecidablePred (C.Prompt s) := fun _ =>
  inferInstanceAs (Decidable (∀ x ∈ _, (∀ r ∈ C.issued s.controller, r ∈ s.installed) ∧ _))

variable {C}

/-- The controller handles the frame that it is shown. -/
theorem controller_of_shown {e : FabricEvent ε ν φ ρ} {x : ν × φ} (h : x ∈ C.shown s e) :
    (C.fabricNext s e).controller = C.next s.controller (C.packetIn x.1 x.2) := by
  cases e with
  | handle e =>
    rw [← C.eq_packetIn e x h]
    rfl
  | install r => cases h
  | lose r => cases h
  | frame env f =>
    rw [shown] at h
    split_ifs at h with htaker
    · obtain rfl := Option.some.inj h
      rw [fabricNext, htaker]
      rfl
    · cases h

variable {flow : φ → Prop} [DecidablePred flow] {opens : σ → ν → φ → Prop}
  [∀ c env, DecidablePred (opens c env)]

/-- **A flow is opened once.** Let `P` be kept by the admitted events, and let the controller, when
it opens the flow in a state with `P`, issue a rule that takes all frames of the flow. With prompt
installation, this happens once at most. -/
theorem countSteps_opening_le_one (hstep : ∀ c e, P c → A e → P (C.next c e))
    (hopens : ∀ c env f, P c → flow f → opens c env f →
      ∃ r ∈ C.issued (C.next c (C.packetIn env f)), ∀ f', flow f' → C.takes r f' = true)
    (hs : P s.controller) (hes : ∀ e ∈ es, C.Admitted A e)
    (hprompt : Along C.fabricNext C.Prompt s es) :
    countSteps C.fabricNext (C.Opening flow opens) s es ≤ 1 := by
  -- once the flow is opened, a rule that takes all its frames is issued for good
  have h := (hprompt.and (along_of_forall hes)).run_count_invariant (C := C.Opening flow opens)
    (P := fun s n => P s.controller ∧ (n = 0 ∨
      n = 1 ∧ ∃ r ∈ C.issued s.controller, ∀ f', flow f' → C.takes r f' = true))
    ?_ ⟨hs, .inl rfl⟩
  · omega
  rintro t e n ⟨hP, ht⟩ ⟨hprompt, he⟩
  refine ⟨invariant_fabricNext hstep hP he, ?_⟩
  by_cases hopening : C.Opening flow opens t e
  · rw [if_pos hopening]
    obtain ⟨x, hx, hflow, hopen⟩ := hopening
    rcases ht with rfl | ⟨-, r, hr, htakes⟩
    · refine .inr ⟨rfl, ?_⟩
      rw [controller_of_shown hx]
      exact hopens _ _ _ hP hflow hopen
    · -- the rule is installed, so that the frame is not shown to the controller
      obtain ⟨hinstalled, hnone⟩ := hprompt x hx
      have hfree := taker_eq_none_iff.mp hnone r (hinstalled hr)
      rw [htakes x.2 hflow] at hfree
      cases hfree
  · rw [if_neg hopening, Nat.add_zero]
    refine ht.imp_right fun ⟨hn, r, hr, htakes⟩ => ⟨hn, r, ?_, htakes⟩
    exact C.issued_fabricNext t e hr

end Opening

end Controller

end Reactive
