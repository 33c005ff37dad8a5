import Mathlib.Data.Finset.Basic
import OnosApps.Onos.Flow

/-!
# Intents

The two kinds of intents the applications submit, and the checks their builders make. The
builders belong to ONOS: which end points they refuse is a parameter, of which only the
documented part is assumed.

## Main definitions

* `PointToPointIntent`, `MultiPointToSinglePointIntent`, `Intent`
* `Intent.Accepts`: the intent takes a frame at a connect point
* `IntentChecks`: the end points the builders accept
-/

namespace Onos

/-- `Intent.DEFAULT_INTENT_PRIORITY`. -/
def DEFAULT_INTENT_PRIORITY : ℕ := 100

/-- An intent from one connect point to another. -/
structure PointToPointIntent where
  appId : ApplicationId
  selector : TrafficSelector
  treatment : TrafficTreatment
  filteredIngressPoint : ConnectPoint
  filteredEgressPoint : ConnectPoint
  priority : ℕ
deriving DecidableEq

/-- An intent from several connect points to one. -/
structure MultiPointToSinglePointIntent where
  appId : ApplicationId
  selector : TrafficSelector
  treatment : TrafficTreatment
  filteredIngressPoints : Finset ConnectPoint
  filteredEgressPoint : ConnectPoint
  priority : ℕ
deriving DecidableEq

/-- The intents the applications submit. -/
inductive Intent where
  | pointToPoint (i : PointToPointIntent)
  | multiPointToSinglePoint (i : MultiPointToSinglePointIntent)
deriving DecidableEq

namespace Intent

def ingressPoints : Intent → Finset ConnectPoint
  | .pointToPoint i => {i.filteredIngressPoint}
  | .multiPointToSinglePoint i => i.filteredIngressPoints

def egressPoint : Intent → ConnectPoint
  | .pointToPoint i => i.filteredEgressPoint
  | .multiPointToSinglePoint i => i.filteredEgressPoint

def selector : Intent → TrafficSelector
  | .pointToPoint i => i.selector
  | .multiPointToSinglePoint i => i.selector

def treatment : Intent → TrafficTreatment
  | .pointToPoint i => i.treatment
  | .multiPointToSinglePoint i => i.treatment

/-- The intent takes the frame `eth` when it comes in at `cp`. -/
def Accepts (i : Intent) (cp : ConnectPoint) (eth : Ethernet) : Prop :=
  cp ∈ i.ingressPoints ∧ i.selector.matches eth

instance (i : Intent) (cp : ConnectPoint) (eth : Ethernet) : Decidable (i.Accepts cp eth) :=
  inferInstanceAs (Decidable (_ ∧ _))

end Intent

/-- The end points with which an intent can be built. A point-to-point intent needs two
distinct ones; a multipoint intent needs an ingress point, and an egress point that is not one
of its ingress points. -/
structure IntentChecks where
  pointToPoint : ConnectPoint → ConnectPoint → Bool
  multiPointToSinglePoint : Finset ConnectPoint → ConnectPoint → Bool
  pointToPoint_of_ne : ∀ p q, p ≠ q → pointToPoint p q = true
  multiPoint_of_nonempty :
    ∀ ps q, ps.Nonempty → q ∉ ps → multiPointToSinglePoint ps q = true
  multiPoint_empty : ∀ q, multiPointToSinglePoint ∅ q = false

namespace IntentChecks

/-- The builder refuses an intent between two ports in both directions or in none. -/
theorem pointToPoint_comm (checks : IntentChecks) {p q : ConnectPoint}
    (h : checks.pointToPoint p q) : checks.pointToPoint q p := by
  by_cases hpq : q = p
  · rwa [hpq] at h ⊢
  · exact checks.pointToPoint_of_ne q p hpq

/-- The checks of ONOS: nothing but the documented cases is accepted. -/
def strict : IntentChecks where
  pointToPoint p q := p ≠ q
  multiPointToSinglePoint ps q := ps ≠ ∅ ∧ q ∉ ps
  pointToPoint_of_ne p q h := by simpa using h
  multiPoint_of_nonempty ps q hps hq := by simpa [Finset.nonempty_iff_ne_empty.mp hps] using hq
  multiPoint_empty q := by simp

end IntentChecks

end Onos
