import Mathlib.Data.List.Basic

/-! # Streams in buffers

A stream is cut into buffers. What a reader needs of the cuts is a relation between the
place where a buffer begins and the place where it ends; it holds of the empty buffer, and
of two parts of a buffer together when it holds of each.
-/

namespace Packing

/-- A relation that says which parts of a stream may lie in one buffer. -/
structure Cuts (Place Symbol : Type*) where
  Within : Place → List Symbol → Place → Prop
  nil : ∀ place, Within place [] place
  append : ∀ {first middle last : Place} {front back : List Symbol}, Within first front middle →
    Within middle back last → Within first (front ++ back) last

variable {Place Symbol : Type*}

namespace Cuts

variable (cuts : Cuts Place Symbol)

/-- Buffers from a place to a place, none of them empty. -/
inductive Chained : Place → List (List Symbol) → Place → Prop
  | nil (place : Place) : Chained place [] place
  | cons {first middle last : Place} {buffer : List Symbol} {buffers : List (List Symbol)}
      (present : buffer ≠ []) (within : cuts.Within first buffer middle)
      (rest : Chained middle buffers last) : Chained first (buffer :: buffers) last

variable {cuts} {first middle last : Place} {front back : List (List Symbol)}

theorem Chained.append (before : cuts.Chained first front middle)
    (after : cuts.Chained middle back last) : cuts.Chained first (front ++ back) last := by
  induction before with
  | nil place => exact after
  | cons present within rest ih => exact .cons present within (ih after)

/-- One more buffer at the end. -/
theorem Chained.concat (before : cuts.Chained first front middle) {buffer : List Symbol}
    (present : buffer ≠ []) (within : cuts.Within middle buffer last) :
    cuts.Chained first (front ++ [buffer]) last :=
  before.append (.cons present within (.nil last))

end Cuts

end Packing
