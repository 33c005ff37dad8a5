import OnosApps.Onos.Intent

/-!
# The intent service

The intents that ONOS holds for all applications, each under its key and in one of the states of
its installation. The service installs and withdraws intents on its own; an application can only
look at the states and make requests.

## Main definitions

* `IntentState`: the states of an intent
* `IntentData`: an intent as it is held
* `IntentService`: the intents that are held, with different keys
* `IntentService.getIntents`, `IntentService.getIntentState`: what an application can look at

## Main results

* `IntentService.getIntentState_of_mem`: the state of an intent that is held
-/

namespace Onos

/-- `IntentState`. -/
inductive IntentState where
  | INSTALL_REQ
  | COMPILING
  | INSTALLING
  | INSTALLED
  | RECOMPILING
  | WITHDRAW_REQ
  | WITHDRAWING
  | WITHDRAWN
  | FAILED
  | CORRUPT
  | PURGE_REQ
deriving DecidableEq, Repr

/-- The key under which an intent is held. -/
structure Key where
  id : ℕ
deriving DecidableEq, Repr

/-- An intent as it is held by the service. -/
structure IntentData where
  key : Key
  intent : Intent
  state : IntentState
deriving DecidableEq

/-- The application that has submitted the intent. -/
def Intent.appId : Intent → ApplicationId
  | .pointToPoint i => i.appId
  | .multiPointToSinglePoint i => i.appId

/-- The intents that are held, each under a key of its own. -/
structure IntentService where
  held : List IntentData
  nodup : (held.map IntentData.key).Nodup

namespace IntentService

variable (svc : IntentService)

/-- `intentService.getIntents()`: the intents of all applications, with their keys. -/
def getIntents : List (Key × Intent) := svc.held.map fun d => (d.key, d.intent)

/-- `intentService.getIntentState(key)`; none for `null`. -/
def getIntentState (key : Key) : Option IntentState :=
  (svc.held.find? (·.key = key)).map IntentData.state

variable {svc}

theorem getIntentState_of_mem {d : IntentData} (hd : d ∈ svc.held) :
    svc.getIntentState d.key = some d.state := by
  obtain ⟨d', hfind⟩ : ∃ d', svc.held.find? (·.key = d.key) = some d' := by
    rw [← Option.isSome_iff_exists, List.find?_isSome]
    exact ⟨d, hd, decide_eq_true rfl⟩
  -- the keys are different, so the first intent with this key is the only one
  have hkey : d'.key = d.key := by simpa using List.find?_some hfind
  have hsame : d' = d :=
    List.inj_on_of_nodup_map svc.nodup (List.mem_of_find?_eq_some hfind) hd hkey
  rw [getIntentState, hfind, hsame, Option.map_some]

theorem mem_getIntents {i : Key × Intent} :
    i ∈ svc.getIntents ↔ ∃ d ∈ svc.held, (d.key, d.intent) = i := List.mem_map

end IntentService

end Onos
