/-!
# Thread identities

A thread is named by a 64-bit word that is never zero, so that a zero word can mean "no thread".
-/

namespace Osal

/-- The identity of a thread. -/
structure Tid where
  raw : UInt64
  ne_zero : raw ≠ 0
  deriving DecidableEq

namespace Tid

/-- The thread a word stands for; zero stands for none. -/
def ofRaw? (raw : UInt64) : Option Tid :=
  if h : raw = 0 then none else some ⟨raw, h⟩

/-- The identity a thread number stands for, counted from the first identity. -/
def ofIndex (i : Nat) : Tid :=
  (ofRaw? (UInt64.ofNat (i + 1))).getD ⟨1, by decide⟩

/-- Whether one identity was handed out before another. -/
def before (a b : Tid) : Bool := a.raw < b.raw

def text (t : Tid) : String := toString t.raw

def debugText (t : Tid) : String := s!"Tid({t.raw})"

/-- The name of a thread that was never given one. -/
def defaultName (t : Tid) : String := "tid-" ++ t.text

@[simp] theorem ofRaw?_zero : ofRaw? 0 = none := rfl

@[simp] theorem ofRaw?_raw (t : Tid) : ofRaw? t.raw = some t := by
  simp [ofRaw?, t.ne_zero]

end Tid

end Osal
