import XtrMessenger.Stamp
import Mathlib.Data.List.Basic

/-! The envelope: a message and the stamps it gathered, oldest first. -/
namespace XtrMessenger

structure Envelope (ω : Type) where
  message : ω
  stamps : List (Stamp ω) := []
  deriving DecidableEq

namespace Envelope
variable {ω : Type}

def withStamps (e : Envelope ω) (stamps : List (Stamp ω)) : Envelope ω :=
  { e with stamps := e.stamps ++ stamps }

def withoutStamps (e : Envelope ω) (base : StampBase) : Envelope ω :=
  { e with stamps := e.stamps.filter fun s => !s.isInstance base }

def all (e : Envelope ω) (base : StampBase) : List (Stamp ω) :=
  e.stamps.filter fun s => s.isInstance base

/-- The most recently added stamp of the class, or none. -/
def last (e : Envelope ω) (base : StampBase) : Option (Stamp ω) := (e.all base).getLast?

@[simp] theorem withStamps_nil (e : Envelope ω) : e.withStamps [] = e := by
  simp [withStamps]

@[simp] theorem withStamps_message (e : Envelope ω) (l : List (Stamp ω)) :
    (e.withStamps l).message = e.message := rfl

@[simp] theorem withStamps_stamps (e : Envelope ω) (l : List (Stamp ω)) :
    (e.withStamps l).stamps = e.stamps ++ l := rfl

theorem last_withStamps_of_isInstance (e : Envelope ω) {s : Stamp ω} {b : StampBase}
    (h : s.isInstance b = true) (l : List (Stamp ω)) :
    (e.withStamps (l ++ [s])).last b = some s := by
  simp [last, all, withStamps, h]

theorem last_isInstance {e : Envelope ω} {s : Stamp ω} {b : StampBase}
    (h : e.last b = some s) : s.isInstance b = true := by
  have hm := List.mem_of_getLast? h
  simpa using (List.mem_filter.mp hm).2

theorem last_eq_none_iff {e : Envelope ω} {b : StampBase} :
    e.last b = none ↔ ∀ s ∈ e.stamps, s.isInstance b = false := by
  simp [last, all]

theorem last_withStamps_ne_none {e : Envelope ω} {b : StampBase} (h : e.last b ≠ none)
    (l : List (Stamp ω)) : (e.withStamps l).last b ≠ none := by
  rw [Ne, last_eq_none_iff] at h ⊢
  exact fun hall => h fun s hs => hall s (List.mem_append_left _ hs)

end Envelope
end XtrMessenger
