import Osal.Error

/-!
# Messages

A message has a label, at most three words and at most one attached capability. The bound on the
words is part of the type, so that every message fits the registers that carry it.
-/

namespace Osal

/-- The most words a message can carry. -/
def maxMessageWords : Nat := 3

/-- A labelled message with an attached capability of type `κ`, or none. -/
structure Message (κ : Type) where
  label : Word
  words : List Word
  cap : Option κ := none
  fits : words.length ≤ maxMessageWords := by decide
  deriving DecidableEq

namespace Message

variable {κ : Type}

/-- A message without capability, refused if it has too many words. -/
def ofWords (label : Word) (words : List Word) : Except PlatformError (Message κ) :=
  if h : words.length ≤ maxMessageWords then .ok { label, words, fits := h }
  else .error (.messageTooLong words.length)

/-- The word at a position, if the message has it. -/
def word? (m : Message κ) (i : Nat) : Option Word := m.words[i]?

def length (m : Message κ) : Nat := m.words.length

/-- The message with a capability attached in place of the one it had. -/
def withCap (m : Message κ) (c : κ) : Message κ := { m with cap := some c }

def dropCap (m : Message κ) : Message κ := { m with cap := none }

/-- The attached capability, moved out of the message. -/
def takeCap (m : Message κ) : Option κ × Message κ := (m.cap, m.dropCap)

def capCount (m : Message κ) : Nat := if m.cap.isSome then 1 else 0

theorem ofWords_eq_ok_iff {label : Word} {words : List Word} {m : Message κ} :
    ofWords label words = .ok m ↔ m.label = label ∧ m.words = words ∧ m.cap = none := by
  unfold ofWords
  split
  · constructor
    · intro h
      cases h
      exact ⟨rfl, rfl, rfl⟩
    · rintro ⟨rfl, rfl, hc⟩
      cases m
      simp_all
  · constructor
    · intro h
      cases h
    · rintro ⟨rfl, rfl, -⟩
      exact absurd m.fits ‹_›

end Message

end Osal
