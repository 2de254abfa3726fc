import Osal.Text.Truncate

/-!
# Texts that are cut

A text is cut to the longest of its prefixes that are short enough. `prefix_truncateChars_iff` says so for
lists of characters: what is left has exactly the prefixes of the text that fit. Everything else about a
cut comes from that.

The place to cut is found in the bytes, by going down until one begins a character. `cutBytes` is that
search with its subtraction checked, and `cutBytes_toByteArray` says that it always ends at the boundary
which the characters tell.
-/

namespace Osal.Text

variable {cs xs ys : List Char} {n : Nat}

/-! ## Lengths -/

theorem byteLength_eq (cs : List Char) : byteLength cs = (String.ofList cs).utf8ByteSize := by
  induction cs with
  | nil => rfl
  | cons c cs ih =>
    rw [byteLength, ih, String.ofList_cons, String.utf8ByteSize_append,
      String.utf8ByteSize_singleton]

@[simp] theorem byteLength_toList (s : String) : byteLength s.toList = s.utf8ByteSize := by
  rw [byteLength_eq, String.ofList_toList]

@[simp] theorem byteLength_append (xs ys : List Char) :
    byteLength (xs ++ ys) = byteLength xs + byteLength ys := by
  rw [byteLength_eq, String.ofList_append, String.utf8ByteSize_append, ← byteLength_eq,
    ← byteLength_eq]

theorem byteLength_mono (h : xs <+: ys) : byteLength xs ≤ byteLength ys := by
  obtain ⟨rest, rfl⟩ := h
  simp

/-! ## Prefixes that fit -/

theorem eq_of_prefix_iff (h : ∀ zs, zs <+: xs ↔ zs <+: ys) : xs = ys :=
  ((h xs).1 List.prefix_rfl).eq_of_length_le ((h ys).2 List.prefix_rfl).length_le

theorem prefix_takeBytes_iff : xs <+: takeBytes cs n ↔ xs <+: cs ∧ byteLength xs ≤ n := by
  induction cs generalizing xs n with
  | nil =>
    rw [takeBytes, List.prefix_nil]
    constructor
    · rintro rfl
      exact ⟨rfl, Nat.zero_le _⟩
    · exact And.left
  | cons c cs ih =>
    cases xs with
    | nil => exact ⟨fun _ => ⟨ List.nil_prefix, Nat.zero_le _⟩, fun _ => List.nil_prefix⟩
    | cons x xs =>
      rw [takeBytes, List.cons_prefix_cons, byteLength]
      by_cases hfits : c.utf8Size ≤ n
      · rw [if_pos hfits, List.cons_prefix_cons, ih]
        constructor
        · rintro ⟨rfl, hpre, hlen⟩
          exact ⟨⟨rfl, hpre⟩, by omega⟩
        · rintro ⟨⟨rfl, hpre⟩, hlen⟩
          exact ⟨rfl, hpre, by omega⟩
      · rw [if_neg hfits, List.prefix_nil]
        constructor
        · exact fun h => absurd h (List.cons_ne_nil _ _)
        · rintro ⟨⟨rfl, -⟩, hlen⟩
          omega

theorem isBoundary_iff : isBoundary cs n = true ↔ ∃ xs, xs <+: cs ∧ byteLength xs = n := by
  induction cs generalizing n with
  | nil =>
    cases n with
    | zero => exact ⟨fun _ => ⟨[], List.prefix_rfl, rfl⟩, fun _ => rfl⟩
    | succ n =>
      constructor
      · intro h
        cases h
      · rintro ⟨xs, hpre, hlen⟩
        rw [List.prefix_nil.1 hpre] at hlen
        cases hlen
  | cons c cs ih =>
    cases n with
    | zero => exact ⟨fun _ => ⟨[], List.nil_prefix, rfl⟩, fun _ => rfl⟩
    | succ n =>
      rw [isBoundary, Bool.and_eq_true, decide_eq_true_iff, ih]
      constructor
      · rintro ⟨hfits, xs, hpre, hlen⟩
        exact ⟨c :: xs, List.cons_prefix_cons.2 ⟨rfl, hpre⟩, by rw [byteLength]; omega⟩
      · rintro ⟨xs, hpre, hlen⟩
        rcases List.prefix_cons_iff.1 hpre with rfl | ⟨xs, rfl, htail⟩
        · cases hlen
        · rw [byteLength] at hlen
          exact ⟨by omega, xs, htail, by omega⟩

theorem isBoundary_boundaryAtMost (cs : List Char) (n : Nat) :
    isBoundary cs (boundaryAtMost cs n) = true := by
  induction n with
  | zero => cases cs <;> rfl
  | succ n ih =>
    rw [boundaryAtMost]
    split
    · assumption
    · exact ih

theorem boundaryAtMost_le (cs : List Char) (n : Nat) : boundaryAtMost cs n ≤ n := by
  induction n with
  | zero => exact Nat.le_refl _
  | succ n ih =>
    rw [boundaryAtMost]
    split
    · exact Nat.le_refl _
    · exact Nat.le_succ_of_le ih

theorem le_boundaryAtMost {m : Nat} (hm : isBoundary cs m = true) (hle : m ≤ n) :
    m ≤ boundaryAtMost cs n := by
  induction n with
  | zero => exact hle
  | succ n ih =>
    rw [boundaryAtMost]
    split
    · exact hle
    · rcases Nat.le_succ_iff.1 hle with hle | rfl
      · exact ih hle
      · exact absurd hm ‹_›

theorem byteLength_le_boundaryAtMost_iff (h : xs <+: cs) :
    byteLength xs ≤ boundaryAtMost cs n ↔ byteLength xs ≤ n :=
  ⟨fun hle => Nat.le_trans hle (boundaryAtMost_le cs n),
    le_boundaryAtMost (isBoundary_iff.2 ⟨xs, h, rfl⟩)⟩

/-- A cut leaves the prefixes that fit, and no others. -/
theorem prefix_truncateChars_iff : xs <+: truncateChars cs n ↔ xs <+: cs ∧ byteLength xs ≤ n := by
  rw [truncateChars, prefix_takeBytes_iff]
  refine and_congr_right fun hpre => ?_
  rw [byteLength_le_boundaryAtMost_iff hpre, Nat.le_min]
  exact and_iff_right (byteLength_mono hpre)

theorem truncateChars_prefix (cs : List Char) (n : Nat) : truncateChars cs n <+: cs :=
  (prefix_truncateChars_iff.1 List.prefix_rfl).1

theorem byteLength_truncateChars_le (cs : List Char) (n : Nat) :
    byteLength (truncateChars cs n) ≤ n :=
  (prefix_truncateChars_iff.1 List.prefix_rfl).2

theorem byteLength_truncateChars (cs : List Char) (n : Nat) :
    byteLength (truncateChars cs n) = boundaryAtMost cs (min (byteLength cs) n) := by
  obtain ⟨xs, hpre, hlen⟩ := isBoundary_iff.1 (isBoundary_boundaryAtMost cs (min (byteLength cs) n))
  refine Nat.le_antisymm (prefix_takeBytes_iff.1 List.prefix_rfl).2 ?_
  have htaken := byteLength_mono (prefix_takeBytes_iff.2 ⟨hpre, Nat.le_refl _⟩)
  rwa [hlen] at htaken

theorem truncateChars_eq_self_iff : truncateChars cs n = cs ↔ byteLength cs ≤ n := by
  constructor
  · intro h
    rw [← h]
    exact byteLength_truncateChars_le cs n
  · intro h
    refine eq_of_prefix_iff fun xs => prefix_truncateChars_iff.trans (and_iff_left_of_imp fun hpre => ?_)
    exact Nat.le_trans (byteLength_mono hpre) h

theorem truncateChars_truncateChars (cs : List Char) (a b : Nat) :
    truncateChars (truncateChars cs a) b = truncateChars cs (min a b) := by
  refine eq_of_prefix_iff fun xs => ?_
  rw [prefix_truncateChars_iff, prefix_truncateChars_iff, prefix_truncateChars_iff, and_assoc,
    Nat.le_min]

theorem min_le_byteLength_truncateChars (cs : List Char) (n : Nat) :
    min (byteLength cs) n ≤ byteLength (truncateChars cs n) + 3 := by
  obtain ⟨rest, hrest⟩ := truncateChars_prefix cs n
  cases rest with
  | nil =>
    rw [List.append_nil] at hrest
    rw [hrest]
    omega
  | cons c rest =>
    -- with one character more it would not fit
    have hmore : ¬ truncateChars cs n ++ [c] <+: truncateChars cs n := fun h => by
      have hlen := h.length_le
      rw [List.length_append, List.length_singleton] at hlen
      omega
    have hpre : truncateChars cs n ++ [c] <+: cs := ⟨rest, by rw [List.append_assoc]; exact hrest⟩
    rw [prefix_truncateChars_iff, not_and, byteLength_append, byteLength, byteLength] at hmore
    have hlong := hmore hpre
    have hsize := c.utf8Size_le_four
    omega

@[simp] theorem toList_truncate (s : String) (maxBytes : Nat) :
    (truncate s maxBytes).toList = truncateChars s.toList maxBytes := String.toList_ofList

theorem utf8ByteSize_truncate (s : String) (maxBytes : Nat) :
    (truncate s maxBytes).utf8ByteSize = byteLength (truncateChars s.toList maxBytes) := by
  simp [← byteLength_toList]

theorem truncate_eq_self_iff {s : String} {maxBytes : Nat} :
    truncate s maxBytes = s ↔ s.utf8ByteSize ≤ maxBytes := by
  rw [← byteLength_toList, ← truncateChars_eq_self_iff, ← toList_truncate, String.toList_inj]

theorem truncate_truncate (s : String) (a b : Nat) :
    truncate (truncate s a) b = truncate s (min a b) := by
  simp [truncate, truncateChars_truncateChars]

/-! ## The search in the bytes -/

/-- Whether a byte begins a character, and does not go on with one. -/
def beginsChar (b : UInt8) : Bool := b < 0x80 || 0xC0 ≤ b

/-- Whether some bytes may be cut after the first `n`: at their ends, and before a byte that begins a
character. -/
def mayCut (bytes : ByteArray) (n : Nat) : Bool :=
  n == 0 || n == bytes.size || bytes.data[n]?.any beginsChar

/-- The search for a place to cut, down from `n`. It fails if it has to go below zero. -/
def searchDown (bytes : ByteArray) : Nat → Option Nat
  | 0 => if mayCut bytes 0 then some 0 else none
  | n + 1 => if mayCut bytes (n + 1) then some (n + 1) else searchDown bytes n

/-- Some bytes cut to at most `maxBytes` of them. -/
def cutBytes (bytes : ByteArray) (maxBytes : Nat) : Option ByteArray :=
  (searchDown bytes (min bytes.size maxBytes)).map fun n => bytes.extract 0 n

theorem beginsChar_ofNat_iff {v : Nat} :
    beginsChar (UInt8.ofNat v) = true ↔ v % 256 < 128 ∨ 192 ≤ v % 256 := by
  simp [beginsChar, UInt8.lt_iff_toNat_lt, UInt8.le_iff_toNat_le]

theorem utf8EncodeChar_eq_cons (c : Char) : ∃ first rest, String.utf8EncodeChar c = first :: rest ∧
    beginsChar first = true ∧ ∀ b ∈ rest, beginsChar b = false := by
  have hrest (vs : List Nat) :
      ∀ b ∈ vs.map fun v => UInt8.ofNat (v % 64 + 128), beginsChar b = false := by
    intro b hb
    obtain ⟨v, -, rfl⟩ := List.mem_map.1 hb
    rw [Bool.eq_false_iff, ne_eq, beginsChar_ofNat_iff]
    omega
  simp only [String.utf8EncodeChar]
  generalize c.val.toNat = v
  -- characters of one to four bytes
  split
  · exact ⟨_, _, rfl, beginsChar_ofNat_iff.2 (by omega), hrest []⟩
  split
  · exact ⟨_, _, rfl, beginsChar_ofNat_iff.2 (by omega), hrest [v]⟩
  split
  · exact ⟨_, _, rfl, beginsChar_ofNat_iff.2 (by omega), hrest [v / 64, v]⟩
  · exact ⟨_, _, rfl, beginsChar_ofNat_iff.2 (by omega), hrest [v / 4096, v / 64, v]⟩

/-- The characters have their boundaries at the end of the bytes and where a byte begins one. -/
theorem isBoundary_eq (cs : List Char) (n : Nat) :
    isBoundary cs n = (n == (cs.flatMap String.utf8EncodeChar).length ||
      (cs.flatMap String.utf8EncodeChar)[n]?.any beginsChar) := by
  induction cs generalizing n with
  | nil => cases n <;> rfl
  | cons c cs ih =>
    obtain ⟨first, rest, hchar, hfirst, hrest⟩ := utf8EncodeChar_eq_cons c
    have hsize : c.utf8Size = rest.length + 1 := by
      rw [← String.length_utf8EncodeChar, hchar, List.length_cons]
    rw [List.flatMap_cons, hchar, List.cons_append]
    cases n with
    | zero => simp [isBoundary, hfirst]
    | succ n =>
      rw [isBoundary, hsize, List.getElem?_cons_succ, List.length_cons, List.length_append]
      by_cases hinside : n < rest.length
      · have hbyte := hrest _ (List.getElem_mem hinside)
        rw [List.getElem?_append_left hinside, List.getElem?_eq_getElem hinside, Option.any_some,
          hbyte, decide_eq_false (by omega), Bool.false_and, Bool.or_false, eq_comm,
          beq_eq_false_iff_ne]
        omega
      · rw [List.getElem?_append_right (by omega), ih, decide_eq_true (by omega), Bool.true_and,
          Nat.add_sub_add_right]
        congr 1
        rw [Bool.eq_iff_iff, beq_iff_eq, beq_iff_eq]
        omega

@[simp] theorem mayCut_utf8Encode (cs : List Char) (n : Nat) : mayCut cs.utf8Encode n = isBoundary cs n := by
  cases n with
  | zero => cases cs <;> rfl
  | succ n =>
    have hdata : cs.utf8Encode.data = (cs.flatMap String.utf8EncodeChar).toArray :=
      List.data_toByteArray
    rw [mayCut, isBoundary_eq, ← ByteArray.size_data, hdata, List.size_toArray,
      List.getElem?_toArray]
    rfl

/-- The search does not go below zero, and ends at the boundary that the characters tell. -/
@[simp] theorem searchDown_utf8Encode (cs : List Char) (n : Nat) :
    searchDown cs.utf8Encode n = some (boundaryAtMost cs n) := by
  induction n with
  | zero => rfl
  | succ n ih =>
    rw [searchDown, boundaryAtMost, mayCut_utf8Encode, ih]
    split <;> rfl

@[simp] theorem size_utf8Encode (cs : List Char) : cs.utf8Encode.size = byteLength cs := by
  rw [byteLength_eq, ← String.size_toByteArray, String.toByteArray_ofList]

theorem cutBytes_toByteArray (s : String) (maxBytes : Nat) :
    cutBytes s.toByteArray maxBytes = some (truncate s maxBytes).toByteArray := by
  obtain ⟨rest, hrest⟩ := truncateChars_prefix s.toList maxBytes
  have hsplit : s.toByteArray = (truncateChars s.toList maxBytes).utf8Encode ++ rest.utf8Encode := by
    rw [← String.utf8Encode_toList, ← List.utf8Encode_append, hrest]
  rw [cutBytes, ← String.utf8Encode_toList, searchDown_utf8Encode, size_utf8Encode,
    ← byteLength_truncateChars, Option.map_some, String.utf8Encode_toList, hsplit, truncate,
    String.toByteArray_ofList, ByteArray.extract_append_eq_left (size_utf8Encode _).symm]

/-! ## What a cut is -/

/-- The longest prefix of whole characters that has at most `maxBytes` bytes. -/
structure IsLongestPrefix (s : String) (maxBytes : Nat) (t : String) : Prop where
  isPrefix : t.toList <+: s.toList
  fits : t.utf8ByteSize ≤ maxBytes
  longest : ∀ u : String, u.toList <+: s.toList → u.utf8ByteSize ≤ maxBytes → u.toList <+: t.toList

theorem isLongestPrefix_truncate (s : String) (maxBytes : Nat) :
    IsLongestPrefix s maxBytes (truncate s maxBytes) where
  isPrefix := by
    rw [toList_truncate]
    exact truncateChars_prefix _ _
  fits := by
    rw [utf8ByteSize_truncate]
    exact byteLength_truncateChars_le _ _
  longest u hpre hfits := by
    simpa [prefix_truncateChars_iff] using And.intro hpre hfits

/-- A cut leaves the longest prefix that fits, and finds it in the bytes without going below zero. It
leaves a text that fits as it is, loses at most three bytes to a character that does not fit whole, and of
two cuts only the closer one counts. -/
theorem truncate_longest (s : String) (maxBytes : Nat) :
    IsLongestPrefix s maxBytes (truncate s maxBytes) ∧
    cutBytes s.toByteArray maxBytes = some (truncate s maxBytes).toByteArray ∧
    (truncate s maxBytes = s ↔ s.utf8ByteSize ≤ maxBytes) ∧
    min s.utf8ByteSize maxBytes ≤ (truncate s maxBytes).utf8ByteSize + 3 ∧
    (∀ more, truncate (truncate s maxBytes) (maxBytes + more) = truncate s maxBytes) ∧
    ∀ again, truncate (truncate s maxBytes) again = truncate s (min maxBytes again) := by
  refine ⟨isLongestPrefix_truncate s maxBytes, cutBytes_toByteArray s maxBytes, truncate_eq_self_iff, ?_,
    fun more => ?_, truncate_truncate s maxBytes⟩
  · rw [utf8ByteSize_truncate, ← byteLength_toList]
    exact min_le_byteLength_truncateChars _ _
  · rw [truncate_truncate, Nat.min_eq_left (Nat.le_add_right ..)]

/-- One byte of the second character would fit. -/
example : truncate "héllo" 2 = "h" := by decide +kernel

end Osal.Text
