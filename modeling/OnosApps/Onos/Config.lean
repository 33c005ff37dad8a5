import Mathlib.Data.Option.Basic

/-!
# Network configuration events

What the configuration listeners of the applications are told, and the exceptions their
handlers can run into.

## Main definitions

* `NetworkConfigEvent C`: an event, with the configuration of type `C` that the application
  reads when it handles the event
* `NetworkConfigEvent.read`: the configuration a listener acts on
* `JavaException`
-/

namespace Onos

/-- The type of a network configuration event. -/
inductive NetworkConfigEvent.Type where
  | CONFIG_REGISTERED
  | CONFIG_UNREGISTERED
  | CONFIG_ADDED
  | CONFIG_UPDATED
  | CONFIG_REMOVED
deriving DecidableEq, Repr

/-- A network configuration event: its type, whether it is about the configuration class of the
application, and what `cfgService.getConfig` returns when it is handled. -/
structure NetworkConfigEvent (C : Type) where
  type : NetworkConfigEvent.Type
  isConfigClass : Bool
  config : Option C

/-- The configuration a listener acts on: it ignores events of other types, events about other
classes, and a configuration that is gone. -/
def NetworkConfigEvent.read {C : Type} (e : NetworkConfigEvent C) : Option C :=
  if (e.type = .CONFIG_ADDED ∨ e.type = .CONFIG_UPDATED) ∧ e.isConfigClass then e.config
  else none

/-- The exceptions a handler can run into. -/
inductive JavaException where
  | nullPointer
  | illegalArgument
  | noSuchElement
  | indexOutOfBounds
deriving DecidableEq, Repr

end Onos
