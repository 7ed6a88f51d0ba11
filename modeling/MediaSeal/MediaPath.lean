import MediaSeal.Frame.Basic

/-!
# Media paths

A path lets frames through, all through the one hook that is attached to it,
if any. A hook is attached over whatever was there before, and only the hook
that is attached can be taken off: one that has been replaced leaves the path
as it is. The path counts what went through and what did not.
-/

namespace MediaSeal

/-- A path for frames of one kind, through hooks of some sort. -/
structure MediaPath (Hook : Type) where
  kind : MediaKind
  hook : Option Hook
  /-- Frames that left the path. The number has no limit here; that a counter of sixty-four
  bits starts again from zero is left out. -/
  forwarded : Nat
  /-- Frames that the hook held back, counted in the same way. -/
  dropped : Nat

namespace MediaPath

variable {Hook : Type}

/-- A path without a hook. -/
def new (kind : MediaKind) : MediaPath Hook := ⟨kind, none, 0, 0⟩

/-- Attach a hook. -/
def attach (path : MediaPath Hook) (hook : Hook) : MediaPath Hook := { path with hook := some hook }

/-- Take a hook off, if it is the one attached. -/
def detach [DecidableEq Hook] (path : MediaPath Hook) (hook : Hook) : MediaPath Hook :=
  if path.hook = some hook then { path with hook := none } else path

/-- Whether a hook is attached. -/
def isAttached (path : MediaPath Hook) : Bool := path.hook.isSome

/-- Count what became of a frame. -/
def count (path : MediaPath Hook) (output : Option Frame) : MediaPath Hook :=
  match output with
  | some _ => { path with forwarded := path.forwarded + 1 }
  | none => { path with dropped := path.dropped + 1 }

end MediaPath

end MediaSeal
