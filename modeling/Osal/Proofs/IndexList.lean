import Osal.IndexList
import Mathlib.Data.List.Nodup
import Mathlib.Data.List.Perm.Subperm

/-!
# What a list of indices holds

`Links.Seg links prev xs next`: the indices `xs` follow one another in the links, in both directions,
between the neighbours `prev` and `next`. `IndexList.Holds l links xs`: the list `l` holds exactly `xs`.
Appending and unlinking change the view as they should (`holds_pushBack`, `holds_unlink`), and leave
every list alone that shares the links but none of the indices touched (`Holds.congr`).
-/

namespace Osal

namespace Links

variable {links : Links} {prev next : Option Nat} {xs ys : List Nat} {i j : Nat}

/-! ### Reading and writing single links -/

@[simp] theorem size_set (link : Link) : (links.set i link).size = links.size := by
  simp [size, set]

@[simp] theorem size_setNext : (links.setNext i next).size = links.size := by
  simp [size, setNext]

@[simp] theorem size_setPrev : (links.setPrev i prev).size = links.size := by
  simp [size, setPrev]

@[simp] theorem link_set_self {link : Link} (h : i < links.size) : (links.set i link).link i = link := by
  have : i < links.cells.size := h
  simp [Links.link, set, this]

@[simp] theorem link_set_ne {link : Link} (h : j ≠ i) : (links.set i link).link j = links.link j := by
  simp [Links.link, set, Ne.symm h]

@[simp] theorem link_setNext_self (h : i < links.size) :
    (links.setNext i next).link i = { links.link i with next } := by
  have : i < links.cells.size := h
  simp [Links.link, setNext, Array.getElem_modify, this]

@[simp] theorem link_setNext_ne (h : j ≠ i) : (links.setNext i next).link j = links.link j := by
  simp [Links.link, setNext, Array.getElem?_modify, Ne.symm h]

@[simp] theorem link_setPrev_self (h : i < links.size) :
    (links.setPrev i prev).link i = { links.link i with prev } := by
  have : i < links.cells.size := h
  simp [Links.link, setPrev, Array.getElem_modify, this]

@[simp] theorem link_setPrev_ne (h : j ≠ i) : (links.setPrev i prev).link j = links.link j := by
  simp [Links.link, setPrev, Array.getElem?_modify, Ne.symm h]

/-! ### Segments -/

/-- The indices follow one another between two neighbours, in both directions. -/
def Seg (links : Links) : Option Nat → List Nat → Option Nat → Prop
  | _, [], _ => True
  | prev, i :: rest, next =>
    links.link i = { prev, next := rest.head?.or next } ∧ Seg links (some i) rest next

theorem seg_append :
    Seg links prev (xs ++ ys) next ↔
      Seg links prev xs (ys.head?.or next) ∧ Seg links (xs.getLast?.or prev) ys next := by
  induction xs generalizing prev with
  | nil => simp [Seg]
  | cons i xs ih =>
    have hhead : (xs ++ ys).head?.or next = xs.head?.or (ys.head?.or next) := by
      simp [List.head?_append, Option.or_assoc]
    have hlast : (i :: xs).getLast?.or prev = xs.getLast?.or (some i) := by
      cases xs <;> simp [List.getLast?_cons]
    rw [List.cons_append, Seg, Seg, ih, hhead, hlast, and_assoc]

theorem Seg.congr {links' : Links} (h : Seg links prev xs next)
    (hlink : ∀ i ∈ xs, links'.link i = links.link i) : Seg links' prev xs next := by
  induction xs generalizing prev with
  | nil => exact trivial
  | cons i xs ih =>
    refine ⟨?_, ih h.2 fun j hj => hlink j (List.mem_cons_of_mem _ hj)⟩
    rw [hlink i List.mem_cons_self]
    exact h.1

theorem follow_of_seg {fuel : Nat} (h : Seg links prev xs none) (hfuel : xs.length ≤ fuel) :
    links.follow fuel xs.head? = xs := by
  induction xs generalizing prev fuel with
  | nil => cases fuel <;> rfl
  | cons i xs ih =>
    obtain ⟨fuel, rfl⟩ : ∃ n, fuel = n + 1 := ⟨fuel - 1, by simp at hfuel; omega⟩
    have hnext : (links.link i).next = xs.head? := by rw [h.1]; simp
    rw [List.head?_cons, follow, hnext, ih h.2 (by simpa using hfuel)]

/-! ### Joining two segments over a gap -/

/-- The links after the successor of an index is set, if there is such an index. -/
def setNextOf (links : Links) (target next : Option Nat) : Links :=
  match target with
  | some p => links.setNext p next
  | none => links

/-- The links after the predecessor of an index is set, if there is such an index. -/
def setPrevOf (links : Links) (target prev : Option Nat) : Links :=
  match target with
  | some n => links.setPrev n prev
  | none => links

@[simp] theorem size_setNextOf {target : Option Nat} :
    (links.setNextOf target next).size = links.size := by
  cases target <;> simp [setNextOf]

@[simp] theorem size_setPrevOf {target : Option Nat} :
    (links.setPrevOf target prev).size = links.size := by
  cases target <;> simp [setPrevOf]

@[simp] theorem link_setNextOf_ne {target : Option Nat} (h : target ≠ some j) :
    (links.setNextOf target next).link j = links.link j := by
  cases target with
  | none => rfl
  | some p => exact link_setNext_ne fun heq => h (congrArg some heq.symm)

@[simp] theorem link_setPrevOf_ne {target : Option Nat} (h : target ≠ some j) :
    (links.setPrevOf target prev).link j = links.link j := by
  cases target with
  | none => rfl
  | some n => exact link_setPrev_ne fun heq => h (congrArg some heq.symm)

theorem Seg.setNextOf_last (h : Seg links prev xs next) (hnodup : xs.Nodup)
    (hlt : ∀ i ∈ xs, i < links.size) (next' : Option Nat) :
    Seg (links.setNextOf xs.getLast? next') prev xs next' := by
  rcases xs.eq_nil_or_concat with rfl | ⟨front, last, hxs⟩
  · exact trivial
  · rw [List.concat_eq_append] at hxs
    subst hxs
    have hnotin : last ∉ front := fun hmem =>
      (List.nodup_append.1 hnodup).2.2 last hmem last (by simp) rfl
    rw [seg_append] at h ⊢
    rw [List.getLast?_concat]
    refine ⟨h.1.congr fun i hi => link_setNext_ne (ne_of_mem_of_not_mem hi hnotin), ?_, trivial⟩
    have hlast : last < links.size := hlt last (by simp)
    simp [setNextOf, hlast, h.2.1]

theorem Seg.setPrevOf_first (h : Seg links prev xs next) (hnodup : xs.Nodup)
    (hlt : ∀ i ∈ xs, i < links.size) (prev' : Option Nat) :
    Seg (links.setPrevOf xs.head? prev') prev' xs next := by
  cases xs with
  | nil => exact trivial
  | cons first xs =>
    have hnotin := (List.nodup_cons.1 hnodup).1
    refine ⟨?_, h.2.congr fun i hi => link_setPrev_ne (ne_of_mem_of_not_mem hi hnotin)⟩
    have hfirst : first < links.size := hlt first (by simp)
    simp [setPrevOf, hfirst, h.1]

/-- The links after two indices, where they exist, are made neighbours. -/
def bridge (links : Links) (prev next : Option Nat) : Links :=
  (links.setNextOf prev next).setPrevOf next prev

@[simp] theorem size_bridge : (links.bridge prev next).size = links.size := by simp [bridge]

@[simp] theorem link_bridge_ne (hp : prev ≠ some j) (hn : next ≠ some j) :
    (links.bridge prev next).link j = links.link j := by
  simp [bridge, hp, hn]

theorem seg_bridge {mid mid' : Option Nat} (hx : Seg links none xs mid)
    (hy : Seg links mid' ys none) (hnodup : (xs ++ ys).Nodup)
    (hlt : ∀ i ∈ xs ++ ys, i < links.size) :
    Seg (links.bridge xs.getLast? ys.head?) none (xs ++ ys) none := by
  obtain ⟨hnx, hny, hdisj⟩ := List.nodup_append.1 hnodup
  have hltx : ∀ i ∈ xs, i < links.size := fun i hi => hlt i (List.mem_append_left _ hi)
  have hlty : ∀ i ∈ ys, i < links.size := fun i hi => hlt i (List.mem_append_right _ hi)
  rw [seg_append, Option.or_none, Option.or_none]
  constructor
  · refine (hx.setNextOf_last hnx hltx _).congr fun i hi => link_setPrevOf_ne fun hhead => ?_
    exact hdisj i hi i (List.mem_of_head? hhead) rfl
  · have hkept : Seg (links.setNextOf xs.getLast? ys.head?) mid' ys none :=
      hy.congr fun i hi => link_setNextOf_ne fun hlast =>
        hdisj i (List.mem_of_getLast? hlast) i hi rfl
    exact hkept.setPrevOf_first hny (by simpa using hlty) _

end Links

/-! ## Lists -/

namespace IndexList

/-- The list holds exactly these indices, in this order. -/
structure Holds (l : IndexList) (links : Links) (xs : List Nat) : Prop where
  seg : links.Seg none xs none
  head : l.head = xs.head?
  tail : l.tail = xs.getLast?
  length : l.length = xs.length
  nodup : xs.Nodup
  lt : ∀ i ∈ xs, i < links.size

variable {l : IndexList} {links links' : Links} {xs : List Nat} {i j : Nat}

theorem holds_empty : IndexList.empty.Holds links [] :=
  ⟨trivial, rfl, rfl, rfl, List.nodup_nil, by simp⟩

theorem Holds.congr (h : l.Holds links xs) (hsize : links'.size = links.size)
    (hlink : ∀ i ∈ xs, links'.link i = links.link i) : l.Holds links' xs :=
  { h with seg := h.seg.congr hlink, lt := fun i hi => hsize ▸ h.lt i hi }

theorem Holds.isEmpty_iff (h : l.Holds links xs) : l.isEmpty = true ↔ xs = [] := by
  simp [isEmpty, h.length]

theorem Holds.length_le (h : l.Holds links xs) : xs.length ≤ links.size := by
  have hsub : xs ⊆ List.range links.size := fun i hi => List.mem_range.2 (h.lt i hi)
  simpa using (h.nodup.subperm hsub).length_le

theorem Holds.toList_eq (h : l.Holds links xs) : l.toList links = xs := by
  rw [toList, h.head]
  exact Links.follow_of_seg h.seg (Nat.le_succ_of_le h.length_le)

theorem Holds.notMem_rest {before after : List Nat} (h : l.Holds links (before ++ i :: after)) :
    i ∉ before ++ after := (List.nodup_cons.1 (List.nodup_middle.1 h.nodup)).1

theorem Holds.next_eq {before after : List Nat} (h : l.Holds links (before ++ i :: after)) :
    links.link i = { prev := before.getLast?, next := after.head? } := by
  have := (Links.seg_append.1 h.seg).2.1
  simpa using this

theorem Holds.mem_of_neighbour (h : l.Holds links xs) (hj : j ∈ xs)
    (hi : (links.link j).prev = some i ∨ (links.link j).next = some i) : i ∈ xs := by
  obtain ⟨before, after, rfl⟩ := List.append_of_mem hj
  rw [h.next_eq] at hi
  rcases hi with hi | hi
  · exact List.mem_append_left _ (List.mem_of_getLast? hi)
  · exact List.mem_append_right _ (List.mem_cons_of_mem _ (List.mem_of_head? hi))

/-! ### Appending -/

theorem pushBack_links (l : IndexList) (links : Links) (i : Nat) :
    (l.pushBack links i).2 = (links.set i { prev := l.tail }).setNextOf l.tail (some i) := by
  unfold pushBack Links.setNextOf
  cases l.tail <;> rfl

@[simp] theorem size_pushBack : (l.pushBack links i).2.size = links.size := by
  simp [pushBack_links]

theorem Holds.link_pushBack (h : l.Holds links xs) (hne : j ≠ i) (hj : j ∉ xs) :
    (l.pushBack links i).2.link j = links.link j := by
  rw [pushBack_links, h.tail, Links.link_setNextOf_ne, Links.link_set_ne hne]
  exact fun hlast => hj (List.mem_of_getLast? hlast)

theorem holds_pushBack (h : l.Holds links xs) (hi : i ∉ xs) (hlt : i < links.size) :
    (l.pushBack links i).1.Holds (l.pushBack links i).2 (xs ++ [i]) := by
  have hold : (links.set i { prev := l.tail }).Seg none xs none :=
    h.seg.congr fun j hj => Links.link_set_ne (ne_of_mem_of_not_mem hj hi)
  have hends : (l.pushBack links i).1 =
      { head := (xs ++ [i]).head?, tail := some i, length := xs.length + 1 } := by
    unfold pushBack
    rw [h.head, h.tail, h.length]
    cases xs with
    | nil => rfl
    | cons x xs => simp [List.getLast?_cons]
  refine ⟨?_, ?_, ?_, ?_, ?_, ?_⟩
  · rw [pushBack_links, Links.seg_append]
    constructor
    · rw [h.tail]
      refine Links.Seg.setNextOf_last (h.tail ▸ hold) h.nodup (fun j hj => ?_) _
      simpa using h.lt j hj
    · refine ⟨?_, trivial⟩
      rw [Links.link_setNextOf_ne, Links.link_set_self hlt, h.tail]
      · simp
      · rw [h.tail]
        exact fun hlast => hi (List.mem_of_getLast? hlast)
  · rw [hends]
  · rw [hends, List.getLast?_concat]
  · rw [hends, List.length_append, List.length_singleton]
  · exact List.nodup_append.2 ⟨h.nodup, List.nodup_singleton i, fun a ha b hb =>
      List.mem_singleton.1 hb ▸ ne_of_mem_of_not_mem ha hi⟩
  · intro j hj
    rw [size_pushBack]
    rcases List.mem_append.1 hj with hj | hj
    · exact h.lt j hj
    · exact List.mem_singleton.1 hj ▸ hlt

/-! ### Unlinking -/

theorem unlink_eq (l : IndexList) (links : Links) (i : Nat) :
    l.unlink links i =
      ({ head := if (links.link i).prev.isSome then l.head else (links.link i).next
         tail := if (links.link i).next.isSome then l.tail else (links.link i).prev
         length := l.length - 1 },
        (links.bridge (links.link i).prev (links.link i).next).set i {}) := by
  unfold unlink
  generalize links.link i = link
  obtain ⟨_ | p, _ | n⟩ := link <;> rfl

@[simp] theorem size_unlink : (l.unlink links i).2.size = links.size := by
  simp [unlink_eq]

@[simp] theorem link_unlink_self (h : i < links.size) : (l.unlink links i).2.link i = {} := by
  simp [unlink_eq, h]

theorem Holds.link_unlink (h : l.Holds links xs) (hi : i ∈ xs) (hj : j ∉ xs) :
    (l.unlink links i).2.link j = links.link j := by
  have hne : j ≠ i := (ne_of_mem_of_not_mem hi hj).symm
  obtain ⟨before, after, rfl⟩ := List.append_of_mem hi
  rw [unlink_eq, h.next_eq, Links.link_set_ne hne]
  refine Links.link_bridge_ne (fun hp => hj ?_) (fun hn => hj ?_)
  · exact List.mem_append_left _ (List.mem_of_getLast? hp)
  · exact List.mem_append_right _ (List.mem_cons_of_mem _ (List.mem_of_head? hn))

theorem holds_unlink {before after : List Nat} (h : l.Holds links (before ++ i :: after)) :
    (l.unlink links i).1.Holds (l.unlink links i).2 (before ++ after) := by
  have hsub : (before ++ after).Sublist (before ++ i :: after) :=
    List.Sublist.append (List.Sublist.refl _) (List.sublist_cons_self i after)
  have hnodup := h.nodup.sublist hsub
  have hbound : ∀ j ∈ before ++ after, j < links.size := fun j hj => h.lt j (hsub.subset hj)
  obtain ⟨hbefore, -, hafter⟩ := Links.seg_append.1 h.seg
  have hjoined := Links.seg_bridge hbefore hafter hnodup hbound
  refine ⟨?_, ?_, ?_, ?_, hnodup, by simpa using hbound⟩
  · rw [unlink_eq, h.next_eq]
    exact hjoined.congr fun j hj => Links.link_set_ne (ne_of_mem_of_not_mem hj h.notMem_rest)
  · rw [unlink_eq, h.next_eq, h.head]
    cases before <;> simp [List.getLast?_cons]
  · rw [unlink_eq, h.next_eq, h.tail]
    cases after <;> simp [List.getLast?_append, List.getLast?_cons]
  · simp [unlink_eq, h.length]

/-! ### Moving an index from one list to another -/

theorem holds_move {l₁ l₂ : IndexList} (before after : List Nat) {ys : List Nat}
    (h₁ : l₁.Holds links (before ++ i :: after)) (h₂ : l₂.Holds links ys)
    (hdisj : ∀ j ∈ before ++ i :: after, j ∉ ys) :
    let unlinked := l₁.unlink links i
    let pushed := l₂.pushBack unlinked.2 i
    unlinked.1.Holds pushed.2 (before ++ after) ∧ pushed.1.Holds pushed.2 (ys ++ [i]) := by
  intro unlinked pushed
  have hi : i ∈ before ++ i :: after := by simp
  have hold : l₂.Holds unlinked.2 ys :=
    h₂.congr size_unlink fun j hj => h₁.link_unlink hi fun hmem => hdisj j hmem hj
  constructor
  · refine (holds_unlink h₁).congr size_pushBack fun j hj => ?_
    refine hold.link_pushBack (ne_of_mem_of_not_mem hj h₁.notMem_rest) (hdisj j ?_)
    rcases List.mem_append.1 hj with hj | hj
    · exact List.mem_append_left _ hj
    · exact List.mem_append_right _ (List.mem_cons_of_mem _ hj)
  · exact holds_pushBack hold (hdisj i hi) (size_unlink.symm ▸ h₁.lt i hi)

end IndexList

end Osal
