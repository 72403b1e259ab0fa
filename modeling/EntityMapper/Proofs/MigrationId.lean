import EntityMapper.MigrationId
import EntityMapper.Proofs.Stepwise

/-!
# The parts of migration identifiers

An identifier is checked by characters, and its parts are cut by bytes. The two agree where each digit
of the timestamp is one byte, that is, where all of them are digits of ASCII
(`MigrationId.splits_iff`). One digit of another script is enough for the timestamp to be another text
or none, and for the parts not to make up the identifier.

A cut gives the part of the text that fills the bytes (`Utf8.take?_eq_some_iff`,
`Utf8.drop?_eq_some_iff`). As a character fills at least one byte, a part that fills as many bytes as
it has characters has one-byte characters only (`Utf8.size_eq_length_iff`).
-/

namespace EntityMapper

/-! ## Cuts -/

namespace Utf8

variable {n : Nat} {c : Char} {cs front back : List Char}

/-- The number of bytes that a text fills. -/
def size : List Char → Nat
  | [] => 0
  | c :: cs => c.utf8Size + size cs

@[simp] theorem size_nil : size [] = 0 := rfl

@[simp] theorem size_cons : size (c :: cs) = c.utf8Size + size cs := rfl

@[simp] theorem size_append : size (front ++ back) = size front + size back := by
  induction front with
  | nil => simp
  | cons c front ih => rw [List.cons_append, size_cons, size_cons, ih, Nat.add_assoc]

theorem length_le_size (cs : List Char) : cs.length ≤ size cs := by
  induction cs with
  | nil => exact Nat.le_refl _
  | cons c cs ih =>
    have hpos := c.utf8Size_pos
    rw [List.length_cons, size_cons]
    omega

/-- A text fills as many bytes as it has characters if each of these fills one. -/
theorem size_eq_length_iff : size cs = cs.length ↔ ∀ c ∈ cs, c.utf8Size = 1 := by
  induction cs with
  | nil => simp
  | cons c cs ih =>
    have hpos := c.utf8Size_pos
    have hle := length_le_size cs
    rw [List.forall_mem_cons, ← ih, List.length_cons, size_cons]
    omega

theorem take?_eq_some_iff : take? n cs = some front ↔ front <+: cs ∧ size front = n := by
  induction cs generalizing n front with
  | nil => cases n <;> cases front <;> simp [take?, eq_comm]
  | cons c cs ih =>
    cases n with
    | zero =>
      rw [take?]
      cases front with
      | nil => simp
      | cons d front =>
        have hpos := d.utf8Size_pos
        simp only [Option.some.injEq, reduceCtorEq, size_cons, false_iff, not_and]
        omega
    | succ n =>
      rw [take?]
      cases front with
      | nil => simp
      | cons d front =>
        rw [List.cons_prefix_cons, size_cons]
        split
        · rename_i hle
          rw [Option.map_eq_some_iff]
          constructor
          · rintro ⟨front', hfront', heq⟩
            cases heq
            obtain ⟨hfront, hsize⟩ := ih.1 hfront'
            exact ⟨⟨rfl, hfront⟩, by omega⟩
          · rintro ⟨⟨rfl, hfront⟩, hsize⟩
            exact ⟨front, ih.2 ⟨hfront, by omega⟩, rfl⟩
        · rename_i hlt
          constructor
          · intro h
            cases h
          · rintro ⟨⟨rfl, -⟩, hsize⟩
            omega

theorem size_eq_zero_iff : size cs = 0 ↔ cs = [] := by
  cases cs with
  | nil => simp
  | cons c cs =>
    have hpos := c.utf8Size_pos
    simp only [size_cons, reduceCtorEq, iff_false]
    omega

theorem drop?_eq_some_iff :
    drop? n cs = some back ↔ ∃ front, size front = n ∧ front ++ back = cs := by
  induction cs generalizing n with
  | nil => cases n <;> simp [drop?, and_comm, eq_comm]
  | cons c cs ih =>
    cases n with
    | zero =>
      simp only [drop?, size_eq_zero_iff, Option.some.injEq, exists_eq_left, List.nil_append]
      exact eq_comm
    | succ n =>
      rw [drop?]
      constructor
      · intro h
        split at h
        · rename_i hle
          obtain ⟨front, hsize, rfl⟩ := ih.1 h
          exact ⟨c :: front, by rw [size_cons]; omega, rfl⟩
        · cases h
      · rintro ⟨front, hsize, hcs⟩
        cases front with
        | nil => cases hsize
        | cons d front =>
          obtain ⟨rfl, rfl⟩ := List.cons_eq_cons.1 hcs
          rw [size_cons] at hsize
          rw [if_pos (by omega)]
          exact ih.2 ⟨front, by omega, rfl⟩

end Utf8

/-! ## Digits -/

/-- Of the ranges of decimal digits, only the first one is in ASCII. -/
theorem decimalDigitRanges_ascii : ∀ r ∈ decimalDigitRanges, r.1 ≤ 127 → r = (0x30, 0x39) := by
  decide +kernel

/-- The decimal digits that fill one byte are those of ASCII. -/
theorem utf8Size_eq_one_iff_isDigit {c : Char} (h : isDecimalDigit c = true) :
    c.utf8Size = 1 ↔ c.isDigit = true := by
  obtain ⟨r, hr, hrange⟩ := List.any_eq_true.1 h
  obtain ⟨hfirst, hlast⟩ : r.1 ≤ c.toNat ∧ c.toNat ≤ r.2 := by simpa using hrange
  rw [Char.utf8Size_eq_one_iff]
  constructor
  · intro hone
    have hone : c.toNat ≤ 127 := hone
    obtain rfl := decimalDigitRanges_ascii r hr (Nat.le_trans hfirst hone)
    simp only [Char.isDigit, Bool.and_eq_true, decide_eq_true_eq]
    exact ⟨hfirst, hlast⟩
  · intro hdigit
    simp only [Char.isDigit, Bool.and_eq_true, decide_eq_true_eq] at hdigit
    have hlast : c.toNat ≤ 57 := hdigit.2
    have hone : c.toNat ≤ 127 := Nat.le_trans hlast (by decide)
    exact hone

/-- An underscore is no digit. -/
theorem isDecimalDigit_underscore : isDecimalDigit '_' = false := by decide +kernel

/-! ## Identifiers -/

/-- The form of an identifier: fifteen digits, an underscore, and a name on one line. -/
theorem isMigrationId_iff {cs : List Char} : isMigrationId cs = true ↔ ∃ digits name,
    cs = digits ++ '_' :: name ∧ digits.length = 15 ∧ (∀ c ∈ digits, isDecimalDigit c = true) ∧
      name ≠ [] ∧ '\n' ∉ name := by
  unfold isMigrationId
  rw [Bool.and_eq_true, Bool.and_eq_true, beq_iff_eq, List.all_eq_true]
  constructor
  · rintro ⟨⟨hlength, hdigits⟩, hrest⟩
    split at hrest
    · rename_i name hname
      simp only [Bool.and_eq_true, Bool.not_eq_true', List.isEmpty_eq_false_iff, List.all_eq_true,
        bne_iff_ne] at hrest
      refine ⟨cs.take 15, name, ?_, hlength, hdigits, hrest.1, fun hmem => hrest.2 _ hmem rfl⟩
      rw [← hname, List.take_append_drop]
    · cases hrest
  · rintro ⟨digits, name, rfl, hlength, hdigits, hne, hline⟩
    rw [List.take_left' hlength, List.drop_left' hlength]
    refine ⟨⟨hlength, hdigits⟩, ?_⟩
    simp only [Bool.and_eq_true, Bool.not_eq_true', List.isEmpty_eq_false_iff, List.all_eq_true,
      bne_iff_ne]
    exact ⟨hne, fun c hc heq => hline (heq ▸ hc)⟩

namespace MigrationId

variable {s : String} {id : MigrationId}

/-- The digits at the start of an identifier. -/
def digits (id : MigrationId) : List Char :=
  id.text.toList.take 15

/-- The parts of an identifier are as it was checked: there are both, the timestamp is the fifteen
digits, the name is not empty, and with an underscore between them they are the identifier. -/
def Splits (id : MigrationId) : Prop :=
  ∃ timestamp name, id.timestamp? = some timestamp ∧ id.name? = some name ∧
    timestamp.toList = id.digits ∧ name ≠ "" ∧ timestamp ++ "_" ++ name = id.text

theorem ofString_eq_ok_iff : ofString s = .ok id ↔ id.text = s := by
  unfold ofString
  constructor
  · intro h
    split at h
    · cases h
    · split at h
      · cases h
        rfl
      · cases h
  · rintro rfl
    have hne : id.text.isEmpty = false := by
      rw [← Bool.not_eq_true, String.isEmpty_iff]
      intro hempty
      have hvalid := id.valid
      rw [hempty] at hvalid
      cases hvalid
    rw [hne, dif_pos id.valid]
    rfl

/-- An identifier is its digits, an underscore and more. -/
theorem exists_name (id : MigrationId) : ∃ name, id.text.toList = id.digits ++ '_' :: name ∧
    id.digits.length = 15 ∧ (∀ c ∈ id.digits, isDecimalDigit c = true) ∧ name ≠ [] := by
  obtain ⟨digits, name, htext, hlength, hdigits, hne, -⟩ := isMigrationId_iff.1 id.valid
  have hdigits' : id.digits = digits := by rw [MigrationId.digits, htext, List.take_left' hlength]
  rw [hdigits']
  exact ⟨name, htext, hlength, hdigits, hne⟩

/-- The digits fill fifteen bytes if they are digits of ASCII. -/
theorem size_digits_iff (id : MigrationId) :
    Utf8.size id.digits = 15 ↔ ∀ c ∈ id.digits, c.isDigit = true := by
  obtain ⟨-, -, hlength, hdigits, -⟩ := id.exists_name
  rw [← hlength, Utf8.size_eq_length_iff]
  exact forall₂_congr fun c hc => utf8Size_eq_one_iff_isDigit (hdigits c hc)

theorem timestamp?_eq_some_iff {timestamp : String} : id.timestamp? = some timestamp ↔
    timestamp.toList <+: id.text.toList ∧ Utf8.size timestamp.toList = 15 := by
  rw [timestamp?, Option.map_eq_some_iff]
  constructor
  · rintro ⟨front, hfront, rfl⟩
    rw [String.toList_ofList]
    exact Utf8.take?_eq_some_iff.1 hfront
  · intro h
    exact ⟨timestamp.toList, Utf8.take?_eq_some_iff.2 h, String.ofList_toList⟩

theorem name?_eq_some_iff {name : String} : id.name? = some name ↔
    ∃ front, Utf8.size front = 16 ∧ front ++ name.toList = id.text.toList := by
  rw [name?, Option.map_eq_some_iff]
  constructor
  · rintro ⟨back, hback, rfl⟩
    rw [String.toList_ofList]
    exact Utf8.drop?_eq_some_iff.1 hback
  · intro h
    exact ⟨name.toList, Utf8.drop?_eq_some_iff.2 h, String.ofList_toList⟩

/-- The first fifteen bytes are the digits if these are digits of ASCII. -/
theorem timestamp?_eq_digits_iff (id : MigrationId) :
    id.timestamp? = some (String.ofList id.digits) ↔ ∀ c ∈ id.digits, c.isDigit = true := by
  rw [timestamp?_eq_some_iff, String.toList_ofList, size_digits_iff]
  exact and_iff_right (List.take_prefix ..)

/-- A name that there is, is not empty: an identifier has more than sixteen characters. -/
theorem ne_empty_of_name? {name : String} (h : id.name? = some name) : name ≠ "" := by
  obtain ⟨front, hsize, htext⟩ := name?_eq_some_iff.1 h
  obtain ⟨rest, htext', hlength, -, hne⟩ := id.exists_name
  rintro rfl
  have hle := Utf8.length_le_size front
  have hpos := List.length_pos_iff.2 hne
  have hcount := congrArg List.length (htext.trans htext')
  simp only [String.toList_empty, List.append_nil, List.length_append, List.length_cons] at hcount
  omega

/-- Where the parts make up the identifier, the digits are digits of ASCII: a shorter timestamp would
be followed by a digit. -/
theorem isDigit_of_joined {timestamp name : String} (ht : id.timestamp? = some timestamp)
    (h : timestamp ++ "_" ++ name = id.text) : ∀ c ∈ id.digits, c.isDigit = true := by
  obtain ⟨hfront, hsize⟩ := timestamp?_eq_some_iff.1 ht
  obtain ⟨rest, htext, hlength, hdigits, -⟩ := id.exists_name
  have hle := Utf8.length_le_size timestamp.toList
  have hjoined : timestamp.toList ++ '_' :: name.toList = id.digits ++ '_' :: rest := by
    rw [← htext, ← h]
    simp
  have hsame : timestamp.toList = id.digits := by
    rcases List.append_eq_append_iff.1 hjoined with ⟨more, hmore, hrest⟩ | ⟨more, hmore, -⟩
    · cases more with
      | nil => rw [hmore, List.append_nil]
      | cons d more =>
        obtain ⟨rfl, -⟩ := List.cons_eq_cons.1 hrest
        have hdigit := hdigits '_' (by rw [hmore]; simp)
        rw [isDecimalDigit_underscore] at hdigit
        cases hdigit
    · have hcount := congrArg List.length hmore
      rw [List.length_append] at hcount
      have hnil : more = [] := List.length_eq_zero_iff.1 (by omega)
      rw [hmore, hnil, List.append_nil]
  exact id.size_digits_iff.1 (hsame ▸ hsize)

/-- Digits of ASCII are the timestamp, and what follows the underscore is the name. -/
theorem splits_of_isDigit (h : ∀ c ∈ id.digits, c.isDigit = true) : id.Splits := by
  obtain ⟨name, htext, -, -, hne⟩ := id.exists_name
  have hname : id.name? = some (String.ofList name) := by
    refine name?_eq_some_iff.2 ⟨id.digits ++ ['_'], ?_, ?_⟩
    · rw [Utf8.size_append, id.size_digits_iff.2 h]
      rfl
    · rw [String.toList_ofList, htext, List.append_assoc]
      rfl
  refine ⟨_, _, id.timestamp?_eq_digits_iff.2 h, hname, String.toList_ofList, ne_empty_of_name? hname, ?_⟩
  rw [← String.toList_inj, htext]
  simp

/-- **Where identifiers split.** The parts of an identifier that was accepted are as it was checked
exactly if its digits are digits of ASCII. In all others the timestamp is not the fifteen digits, or
there is none, and the parts do not make up the identifier; but a name that there is, is never
empty. -/
theorem splits_iff (h : ofString s = .ok id) :
    (id.Splits ↔ ∀ c ∈ s.toList.take 15, c.isDigit = true) ∧
    (id.timestamp? = some (String.ofList (s.toList.take 15)) ↔
      ∀ c ∈ s.toList.take 15, c.isDigit = true) ∧
    ((∃ timestamp name, id.timestamp? = some timestamp ∧ id.name? = some name ∧
        timestamp ++ "_" ++ name = s) ↔ ∀ c ∈ s.toList.take 15, c.isDigit = true) ∧
    ∀ name, id.name? = some name → name ≠ "" := by
  obtain rfl := ofString_eq_ok_iff.1 h
  refine ⟨⟨?_, splits_of_isDigit⟩, id.timestamp?_eq_digits_iff, ⟨?_, fun hdigits => ?_⟩,
    fun name => ne_empty_of_name?⟩
  · rintro ⟨timestamp, name, ht, -, -, -, hjoined⟩
    exact isDigit_of_joined ht hjoined
  · rintro ⟨timestamp, name, ht, -, hjoined⟩
    exact isDigit_of_joined ht hjoined
  · obtain ⟨timestamp, name, ht, hn, -, -, hjoined⟩ := splits_of_isDigit hdigits
    exact ⟨timestamp, name, ht, hn, hjoined⟩

theorem splits_iff_scripts :
    (∃ id, ofString "201410241421441_Initial" = .ok id ∧ id.Splits) ∧
    ∃ id, ofString "20141024142144\u0663_ab" = .ok id ∧ ¬ id.Splits ∧ id.timestamp? = none ∧
      id.name? = some "_ab" := by
  have hascii : ofString "201410241421441_Initial" =
      .ok ⟨"201410241421441_Initial", by decide +kernel⟩ := rfl
  have hmixed : ofString "20141024142144\u0663_ab" =
      .ok ⟨"20141024142144\u0663_ab", by decide +kernel⟩ := rfl
  have hdigits : ("201410241421441_Initial".toList.take 15).all Char.isDigit = true := by
    decide +kernel
  have hother : ("20141024142144\u0663_ab".toList.take 15).all Char.isDigit = false := by
    decide +kernel
  refine ⟨⟨_, hascii, (splits_iff hascii).1.2 (List.all_eq_true.1 hdigits)⟩, _, hmixed,
    fun hsplits => ?_, rfl, rfl⟩
  rw [List.all_eq_true.2 ((splits_iff hmixed).1.1 hsplits)] at hother
  cases hother

end MigrationId

end EntityMapper
