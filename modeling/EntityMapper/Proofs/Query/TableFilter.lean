import EntityMapper.Proofs.Query.Grammar
import EntityMapper.Proofs.Value.Numerals
import EntityMapper.Query.TableFilter

/-!
# Table filters are read back

The text of a table filter is read in one way only, and what is read is the predicate it was written
for: its tree, the column and the operator of every comparison, and every constant as a literal
(`TableFilter.readsText_text_iff`). Constants may hold quotes, parentheses and words such as `and`:
they stand between quotes, or are numbers, which have no such characters
(`EntityMapper.Proofs.Value.Numerals`). Columns are written without quotes, so their names have to
be words.
-/

namespace EntityMapper

/-! ## Literals -/

/-- A constant of a table filter. -/
inductive Literal
  /-- A text between quotes. -/
  | quoted (s : String)
  /-- An identifier between quotes, after the word `guid`. -/
  | guid (s : String)
  /-- Hexadecimal digits between quotes, after an `X`. -/
  | bytes (digits : String)
  /-- A number or a truth value. -/
  | bare (word : String)
  deriving DecidableEq

namespace Literal

open Token

/-- The word of a literal, and what stands between quotes after it. -/
def parts : Literal → String × Option String
  | quoted s => ("", some s)
  | guid s => ("guid", some s)
  | bytes digits => ("X", some digits)
  | bare word => (word, none)

def tokens (l : Literal) : List Token :=
  marks l.parts.1 ++ l.parts.2.toList.map name

theorem parts_injective : Function.Injective parts := by
  intro l l' h
  cases l <;> cases l' <;> simp_all [parts]

theorem tokens_injective : Function.Injective tokens := by
  intro l l' h
  -- Outside the quotes there is the word, and nothing else.
  have hword : ∀ l : Literal, l.tokens.filterMap (·.mark?) = l.parts.1.toList := fun l => by
    simp [tokens, List.filterMap_map, Function.comp_def]
  have hquoted : ∀ l : Literal, l.tokens.filterMap (·.name?) = l.parts.2.toList := fun l => by
    simp [tokens, List.filterMap_map, Function.comp_def]
  refine parts_injective (Prod.ext ?_ ?_)
  · rw [← String.toList_inj, ← hword, ← hword, h]
  · rw [← Option.head?_toList (o := l.parts.2), ← hquoted, h, hquoted, Option.head?_toList]

variable {l : Literal}

/-- Whatever stands between quotes, a literal is one run of tokens. -/
theorem solid_tokens (h : ∀ word, l = bare word → IsWord '\'' word) : Solid l.tokens := by
  cases l with
  | quoted s => exact ⟨by simp [tokens, parts], by simp [tokens, parts, marks, isDivider]⟩
  | guid s =>
    have hword : IsWord '\'' "guid" := ⟨by decide, by decide, by decide⟩
    exact hword.solid.append (by simp [parts, isDivider])
  | bytes digits =>
    have hword : IsWord '\'' "X" := ⟨by decide, by decide, by decide⟩
    exact hword.solid.append (by simp [parts, isDivider])
  | bare word => simpa [tokens, parts] using (h word rfl).solid

theorem separate_tokens (h : ∀ word, l = bare word → IsWord '\'' word) :
    Separate '\'' l.tokens := by
  have hquoted : ∀ o : Option String, Separate '\'' (o.toList.map name) := by
    intro o
    cases o with
    | none => trivial
    | some s => exact ⟨by simp, trivial⟩
  refine separate_marks_append ?_ (hquoted l.parts.2)
  cases l with
  | quoted | guid | bytes => simp [parts]
  | bare word => exact (h word rfl).notMem

end Literal

/-! ## Constants -/

/-- A quoted text without quotes in it is put between quotes as it is. -/
theorem Quoted.double_of_notMem {quote : Char} {chars : List Char} (h : quote ∉ chars) :
    double quote chars = chars := by
  induction chars with
  | nil => rfl
  | cons c chars ih =>
    obtain ⟨hne, hrest⟩ := not_or.1 (List.mem_cons.not.1 h)
    rw [double, if_neg (Ne.symm hne), ih hrest]

theorem Hex.notMem_ofBytes (bs : List UInt8) : '\'' ∉ Hex.ofBytes bs := by
  have hdigit : ∀ n < 16, digit n ≠ '\'' := by decide
  intro h
  obtain ⟨b, -, hb⟩ := List.mem_flatMap.1 h
  have hlow : b.toNat < 256 := b.toNat_lt
  rcases List.mem_pair.1 hb with hb | hb
  · exact hdigit _ (by omega) hb.symm
  · exact hdigit _ (by omega) hb.symm

/-- The literal of a constant of its own type. -/
def Value.literal (v : Value) : Literal :=
  match v with
  | .bool _ | .tinyInt _ | .smallInt _ | .int _ | .bigInt _ | .float _ | .double _ =>
    .bare (TableFilter.value v)
  | .uuid u => .guid u.display
  | .bytes bs => .bytes (String.ofList (Hex.ofBytes bs))
  | v => .quoted v.display

/-- The literal of a constant. -/
def Operand.literal (c : Operand) : Literal :=
  if c.asString then .quoted c.value.display else c.value.literal

namespace TableFilter

open Token

theorem isWord_of_isNumeral {s : String} (h : IsNumeral s.toList) : IsWord '\'' s :=
  isWord_of_all (by decide) (by decide) (fun hs => h.nonempty (by rw [hs]; rfl))
    h.chars

/-- Constants are written as words only if they are numbers or truth values. -/
theorem isWord_of_literal {v : Value} {word : String} (h : v.literal = .bare word) :
    IsWord '\'' word := by
  refine isWord_of_isNumeral ?_
  cases v with
  | bool b =>
    cases h
    cases b <;> exact ⟨by decide, by decide⟩
  | tinyInt n | smallInt n | int n =>
    cases h
    exact isNumeral_toString n.toInt
  | bigInt n =>
    cases h
    rw [value, String.toList_append]
    exact (isNumeral_toString n.toInt).append (by decide)
  | float x =>
    cases h
    exact FloatLayout.literal.isNumeral_write .single x.decode
  | double x =>
    cases h
    exact FloatLayout.literal.isNumeral_write .double x.decode
  | null | decimal | text | bytes | date | time | timestamp | uuid | json | array => cases h

theorem write_quoted (s : String) : write '\'' (Literal.quoted s).tokens = literal s := by
  simp [Literal.tokens, Literal.parts, marks, literal]

theorem write_literal (v : Value) : write '\'' v.literal.tokens = value v := by
  cases v with
  | bool | tinyInt | smallInt | int | bigInt | float | double =>
    simp [Value.literal, Literal.tokens, Literal.parts]
  | uuid u => simp [Value.literal, Literal.tokens, Literal.parts, value, literal]
  | bytes bs =>
    have hquoted : Quoted.encode '\'' (String.ofList (Hex.ofBytes bs)) =
        "'" ++ String.ofList (Hex.ofBytes bs) ++ "'" := by
      rw [Quoted.encode, String.toList_ofList, Quoted.double_of_notMem (Hex.notMem_ofBytes bs),
        ← String.toList_inj]
      simp
    simp [Value.literal, Literal.tokens, Literal.parts, value, hquoted, ← String.append_assoc]
  | null | decimal | text | date | time | timestamp | json | array => exact write_quoted _

theorem write_operand (c : Operand) : write '\'' c.literal.tokens = operand c := by
  unfold Operand.literal operand
  split
  · exact write_quoted _
  · exact write_literal _

/-! ## Filters -/

/-- The grammar of table filters. -/
def grammar : Grammar Literal where
  column := marks
  operator
    | .equal => "eq"
    | .notEqual => "ne"
    | .less => "lt"
    | .lessOrEqual => "le"
    | .greater => "gt"
    | .greaterOrEqual => "ge"
  operand := Literal.tokens
  between
    | .both => ") and ("
    | .either => ") or ("

/-- Operators are written as the grammar says. -/
theorem operator_grammar : grammar.operator = operator := by
  funext op
  cases op <;> rfl

theorem grammar_clear : grammar.Clear where
  column := marks_injective
  operand := Literal.tokens_injective
  operator := Comparison.injective_of_nodup (f := grammar.operator) (by decide)
  operator_unbroken := by
    intro op
    cases op <;> decide
  between_ends := by
    intro k rest
    cases k <;> exact ends_cons (by decide)
  between_cancel := by
    intro k k' r s h
    cases k <;> cases k'
    case both.both | either.either => rfl
    case both.either | either.both => simp [grammar, marks] at h

theorem grammar_unquoted : grammar.Unquoted '\'' where
  dividers := by decide
  operator := by
    intro op
    cases op <;> decide
  between := by
    intro k
    cases k <;> decide

/-- A comparison as it stands in a filter. -/
def compared : Comparison × Property × Operand → Compared Literal
  | (op, p, c) => ⟨p.columnName, op, c.literal⟩

theorem text_eq (p : Predicate) : text p = grammar.text '\'' (p.condition compared) := by
  induction p with
  | compare op p c =>
    rw [Predicate.condition, Grammar.text_compare, text, ← write_operand, operator_grammar]
    simp [grammar, compared]
  | both l r hl hr | either l r hl hr =>
    rw [Predicate.condition, Grammar.text_join, ← hl, ← hr, text]
    simp [grammar, String.append_assoc]

theorem legible_compared {op : Comparison} {p : Property} (c : Operand)
    (h : IsWord '\'' p.columnName) : grammar.Legible '\'' (compared (op, p, c)) := by
  have hword : ∀ word, c.literal = .bare word → IsWord '\'' word := by
    intro word hword
    unfold Operand.literal at hword
    split at hword
    · cases hword
    · exact isWord_of_literal hword
  exact ⟨h.solid, Literal.solid_tokens hword, h.separate, Literal.separate_tokens hword⟩

/-- The text between the quotes of a literal is that of the constant. -/
theorem display_of_literal {c : Operand} {s : String}
    (h : c.literal = .quoted s ∨ c.literal = .guid s) : s = c.value.display := by
  obtain ⟨v, asString⟩ := c
  cases asString with
  | true => rcases h with h | h <;> cases h; rfl
  | false => cases v <;> rcases h with h | h <;> cases h <;> simp [Value.display]

/-- **Table filters are unambiguous.** If the names of its columns are words, the text of a
predicate is read as that predicate, with its constants as literals, and as no other. What stands
between quotes is the text of the constant, but for bytes. -/
theorem text_unambiguous {p : Predicate}
    (hwords : ∀ x ∈ p.comparisons, IsWord '\'' x.2.1.columnName) :
    (∀ c, grammar.ReadsText '\'' (text p) c ↔ c = p.condition compared) ∧
    ∀ x ∈ p.comparisons, ∀ s, x.2.2.literal = .quoted s ∨ x.2.2.literal = .guid s →
      s = x.2.2.value.display := by
  refine ⟨fun c => ?_, fun _ _ _ => display_of_literal⟩
  rw [text_eq]
  refine Grammar.readsText_text_iff grammar_clear grammar_unquoted fun x hx => ?_
  rw [Predicate.comparisons_condition] at hx
  obtain ⟨⟨op, p, c⟩, hmem, rfl⟩ := List.mem_map.1 hx
  exact legible_compared c (hwords _ hmem)

/-- Notes with a text that looks like the end of a comparison, and with a large key or some
version. -/
def filterOnNotes : Predicate :=
  .both (.compare .equal Notes.body ⟨.text "it's') or (Id eq 1", true⟩)
    (.either (.compare .greater Notes.key ⟨.bigInt 99, false⟩)
      (.compare .notEqual Notes.version ⟨.uuid .nil, false⟩))

theorem text_unambiguous_notes :
    (∀ x ∈ filterOnNotes.comparisons, IsWord '\'' x.2.1.columnName) ∧
    text filterOnNotes = "(Body eq 'it''s'') or (Id eq 1') and (" ++
      "(Id gt 99L) or (Version ne guid'00000000-0000-0000-0000-000000000000'))" ∧
    ∀ c, grammar.ReadsText '\'' (text filterOnNotes) c ↔
      c = .join .both (.compare ⟨"Body", .equal, .quoted "it's') or (Id eq 1"⟩)
        (.join .either (.compare ⟨"Id", .greater, .bare "99L"⟩)
          (.compare ⟨"Version", .notEqual, .guid "00000000-0000-0000-0000-000000000000"⟩)) := by
  have hwords : ∀ x ∈ filterOnNotes.comparisons, IsWord '\'' x.2.1.columnName := by
    have hcolumns : ∀ x ∈ filterOnNotes.comparisons,
        x.2.1.columnName ≠ "" ∧ x.2.1.columnName.toList.all Char.isAlphanum = true := by decide
    intro x hx
    obtain ⟨hne, hall⟩ := hcolumns x hx
    exact isWord_of_all (by decide) (by decide) hne hall
  have hcondition : filterOnNotes.condition compared =
      .join .both (.compare ⟨"Body", .equal, .quoted "it's') or (Id eq 1"⟩)
        (.join .either (.compare ⟨"Id", .greater, .bare "99L"⟩)
          (.compare ⟨"Version", .notEqual, .guid "00000000-0000-0000-0000-000000000000"⟩)) := by
    decide
  refine ⟨hwords, by decide, ?_⟩
  rw [← hcondition]
  exact (text_unambiguous hwords).1

end TableFilter

end EntityMapper
