/-!
# Histories

A history lists what happened, the latest first. What came before a deed is the list after it, so that
a law about one deed and its past is a law about a whole history (`Lawful`), and something may be said
to have happened (`Occurred`) where some deed was so when it came.
-/

namespace Osal

variable {δ : Type} {law : List δ → δ → Prop} {deed : δ} {past : List δ}

/-- Each deed is as a law says of it, given what came before. -/
def Lawful (law : List δ → δ → Prop) (history : List δ) : Prop :=
  ∀ later deed past, history = later ++ deed :: past → law past deed

/-- Some deed is as a law says of it, given what came before. -/
def Occurred (law : List δ → δ → Prop) (history : List δ) : Prop :=
  ∃ later deed past, history = later ++ deed :: past ∧ law past deed

@[simp] theorem lawful_nil : Lawful law [] := by
  intro later deed past h
  cases later <;> cases h

@[simp] theorem lawful_cons : Lawful law (deed :: past) ↔ law past deed ∧ Lawful law past := by
  constructor
  · intro h
    refine ⟨h [] deed past rfl, fun later deed' past' heq => h (deed :: later) deed' past' ?_⟩
    rw [heq, List.cons_append]
  · rintro ⟨hfirst, hrest⟩ later deed' past' heq
    rcases List.cons_eq_append_iff.1 heq with ⟨-, heq⟩ | ⟨rest, -, heq⟩
    · obtain ⟨rfl, rfl⟩ := List.cons.inj heq
      exact hfirst
    · exact hrest rest deed' past' heq

@[simp] theorem not_occurred_nil : ¬ Occurred law [] := by
  rintro ⟨later, deed, past, h, -⟩
  cases later <;> cases h

@[simp] theorem occurred_cons : Occurred law (deed :: past) ↔ law past deed ∨ Occurred law past := by
  constructor
  · rintro ⟨later, deed', past', heq, hlaw⟩
    rcases List.cons_eq_append_iff.1 heq with ⟨-, heq⟩ | ⟨rest, -, heq⟩
    · obtain ⟨rfl, rfl⟩ := List.cons.inj heq
      exact Or.inl hlaw
    · exact Or.inr ⟨rest, deed', past', heq, hlaw⟩
  · rintro (hlaw | ⟨later, deed', past', rfl, hlaw⟩)
    · exact ⟨[], deed, past, rfl, hlaw⟩
    · exact ⟨deed :: later, deed', past', rfl, hlaw⟩

theorem getElem?_of_initial {α : Type} {first last : List α} (h : first <+: last) {i : Nat} {a : α}
    (hi : first[i]? = some a) : last[i]? = some a := by
  obtain ⟨rest, rfl⟩ := h
  rw [List.getElem?_append_left (List.getElem?_eq_some_iff.1 hi).1, hi]

end Osal
