import EntityMapper.Proofs.Sql.Lexing
import EntityMapper.Query.Predicate

/-!
# The grammar of conditions

Stores take a predicate as text in which comparisons are combined with parentheses. A `Grammar` says
how a column, an operator and an operand are written and what stands between two conditions, and
`Grammar.Reads` says which tokens are which condition:

    condition := column " " operator " " operand | "(" condition between condition ")"

Nothing marks the end of a condition. It is found all the same, because a condition has as many
closing parentheses as opening ones and its words have no blanks or parentheses in them. So of two
conditions that begin one sequence of tokens, each followed by its own rest, neither is longer than
the other (`Grammar.Reads.cancel`), and a text has at most one reading. With names between quotes,
a text has the reading it was written for, and no other (`Grammar.readsText_text_iff`).
-/

namespace EntityMapper

/-! ## Writing tokens -/

namespace Token

/-- The text of tokens: names stand between quotes. -/
def write (quote : Char) : List Token → String
  | [] => ""
  | name s :: rest => Quoted.encode quote s ++ write quote rest
  | mark c :: rest => String.singleton c ++ write quote rest

/-- No quote stands outside names, and no name follows another. -/
def Separate (quote : Char) : List Token → Prop
  | [] => True
  | name _ :: rest => (∀ t ∈ rest.head?, t.name? = none) ∧ Separate quote rest
  | mark c :: rest => c ≠ quote ∧ Separate quote rest

variable {quote : Char} {s : String} {tokens others : List Token}

@[simp] theorem name?_name : (name s).name? = some s := rfl

@[simp] theorem name?_mark (c : Char) : (mark c).name? = none := rfl

@[simp] theorem mark?_name : (name s).mark? = none := rfl

@[simp] theorem write_nil : write quote [] = "" := rfl

@[simp] theorem write_name_cons : write quote (name s :: tokens) =
    Quoted.encode quote s ++ write quote tokens := rfl

@[simp] theorem write_mark_cons (c : Char) : write quote (mark c :: tokens) =
    String.singleton c ++ write quote tokens := rfl

@[simp] theorem write_append :
    write quote (tokens ++ others) = write quote tokens ++ write quote others := by
  induction tokens with
  | nil => simp
  | cons t tokens ih => cases t <;> simp [ih, String.append_assoc]

@[simp] theorem write_marks : write quote (marks s) = s := by
  have hchars : ∀ chars : List Char, write quote (chars.map mark) = String.ofList chars := by
    intro chars
    induction chars with
    | nil => rfl
    | cons c chars ih =>
      rw [List.map_cons, write_mark_cons, ih, ← String.toList_inj]
      simp
  rw [marks, hchars, String.ofList_toList]

theorem marks_injective : Function.Injective marks := fun _ _ h =>
  String.toList_inj.1 (List.map_injective_iff.2 (fun _ _ => mark.inj) h)

@[simp] theorem filterMap_name?_marks (s : String) : (marks s).filterMap (·.name?) = [] := by
  simp [marks, List.filterMap_map, name?]

@[simp] theorem filterMap_mark?_marks (s : String) :
    (marks s).filterMap (·.mark?) = s.toList := by
  simp [marks, List.filterMap_map, mark?]

theorem marks_append (s t : String) : marks (s ++ t) = marks s ++ marks t := by
  simp [marks]

theorem head?_write (h : Separate quote tokens) (hname : ∀ t ∈ tokens.head?, t.name? = none) :
    quote ∉ (write quote tokens).toList.head? := by
  cases tokens with
  | nil => simp
  | cons t tokens =>
    cases t with
    | name s => cases hname (name s) rfl
    | mark c => simpa using h.1

/-- Tokens that stand apart are read as they were written. -/
theorem lex_write (h : Separate quote tokens) : lex quote (write quote tokens) = some tokens := by
  induction tokens with
  | nil => rfl
  | cons t tokens ih =>
    cases t with
    | name s =>
      rw [lex, write_name_cons, String.toList_append, lexFrom_encode (head?_write h.2 h.1), ← lex,
        ih h.2]
      rfl
    | mark c =>
      obtain ⟨hne, hrest⟩ := h
      have hread : lexFrom quote .outside (write quote tokens).toList = some tokens := ih hrest
      simp [lex, lexFrom, hne, hread]

/-! ## Words between blanks and parentheses -/

/-- The characters that end a word of a condition. -/
def dividers : List Char := [' ', '\n', '(', ')']

/-- Whether a token ends a word. -/
def isDivider : Token → Bool
  | name _ => false
  | mark c => dividers.contains c

/-- Whether a text has no character that ends a word. -/
def isUnbroken (s : String) : Bool :=
  s.toList.all (!dividers.contains ·)

/-- A run of tokens that no divider breaks. -/
structure Solid (tokens : List Token) : Prop where
  nonempty : tokens ≠ []
  unbroken : ∀ t ∈ tokens, t.isDivider = false

/-- What follows a run ends it. -/
def Ends (rest : List Token) : Prop :=
  ∀ t ∈ rest.head?, t.isDivider = true

/-- A word that can stand in a condition. -/
structure IsWord (quote : Char) (s : String) : Prop where
  nonempty : s ≠ ""
  notMem : quote ∉ s.toList
  unbroken : isUnbroken s = true

theorem isUnbroken_append (s t : String) :
    isUnbroken (s ++ t) = (isUnbroken s && isUnbroken t) := by
  simp [isUnbroken, List.all_append]

theorem unbroken_marks (h : isUnbroken s = true) : ∀ t ∈ marks s, t.isDivider = false :=
  List.forall_mem_map.2 fun c hc => by simpa [isDivider] using List.all_eq_true.1 h c hc

theorem ends_nil : Ends [] := by simp [Ends]

theorem ends_cons {t : Token} (h : t.isDivider = true) : Ends (t :: tokens) := by
  simpa [Ends] using h

theorem Ends.append (h : Ends tokens) (hothers : Ends others) : Ends (tokens ++ others) := by
  cases tokens with
  | nil => exact hothers
  | cons t tokens => exact ends_cons (h t rfl)

theorem Ends.name?_eq_none (h : Ends tokens) : ∀ t ∈ tokens.head?, t.name? = none := by
  intro t ht
  cases t with
  | name s => cases h (name s) ht
  | mark c => rfl

theorem separate_marks_append (hquote : quote ∉ s.toList) (h : Separate quote tokens) :
    Separate quote (marks s ++ tokens) := by
  rw [marks]
  generalize s.toList = chars at hquote
  induction chars with
  | nil => exact h
  | cons c chars ih =>
    obtain ⟨hne, hrest⟩ := not_or.1 (List.mem_cons.not.1 hquote)
    exact ⟨Ne.symm hne, ih hrest⟩

theorem separate_marks (hquote : quote ∉ s.toList) : Separate quote (marks s) := by
  rw [← List.append_nil (marks s)]
  exact separate_marks_append hquote trivial

theorem Separate.append (h : Separate quote tokens) (hothers : Separate quote others)
    (hname : ∀ t ∈ others.head?, t.name? = none) : Separate quote (tokens ++ others) := by
  induction tokens with
  | nil => exact hothers
  | cons t tokens ih =>
    cases t with
    | mark c => exact ⟨h.1, ih h.2⟩
    | name s =>
      refine ⟨?_, ih h.2⟩
      cases tokens with
      | nil => exact hname
      | cons u tokens => exact h.1

theorem Solid.append (h : Solid tokens) (hothers : ∀ t ∈ others, t.isDivider = false) :
    Solid (tokens ++ others) :=
  ⟨List.append_ne_nil_of_left_ne_nil h.nonempty others,
    List.forall_mem_append.2 ⟨h.unbroken, hothers⟩⟩

theorem IsWord.solid (h : IsWord quote s) : Solid (marks s) :=
  ⟨by simpa [marks] using h.nonempty, unbroken_marks h.unbroken⟩

theorem IsWord.separate (h : IsWord quote s) : Separate quote (marks s) :=
  separate_marks h.notMem

theorem IsWord.append (h : IsWord quote s) {t : String} (hquote : quote ∉ t.toList)
    (ht : isUnbroken t = true) : IsWord quote (s ++ t) where
  nonempty heq := h.nonempty (String.append_eq_empty_iff.1 heq).1
  notMem hmem := by
    rw [String.toList_append] at hmem
    exact (List.mem_append.1 hmem).elim h.notMem hquote
  unbroken := by rw [isUnbroken_append, h.unbroken, ht, Bool.and_self]

/-- A text whose characters are of a kind that dividers are not of. -/
theorem isUnbroken_of_all {f : Char → Bool} (hdividers : dividers.all (!f ·) = true)
    (h : s.toList.all f = true) : isUnbroken s = true := by
  rw [isUnbroken, List.all_eq_true]
  intro c hc
  by_contra hdivider
  have hnot : f c = false := by
    simpa using List.all_eq_true.1 hdividers c (by simpa using hdivider)
  cases (List.all_eq_true.1 h c hc).symm.trans hnot

/-- A text of characters that are neither quotes nor dividers is a word. -/
theorem isWord_of_all {f : Char → Bool} (hquote : f quote = false)
    (hdividers : dividers.all (!f ·) = true) (hne : s ≠ "") (h : s.toList.all f = true) :
    IsWord quote s := by
  refine ⟨hne, fun hmem => ?_, isUnbroken_of_all hdividers h⟩
  cases (List.all_eq_true.1 h quote hmem).symm.trans hquote

/-- A run of tokens is what stands before the first token that ends it. -/
theorem takeWhile_run {f : Token → Bool} {xs r : List Token} (hx : ∀ t ∈ xs, f t = false)
    (hr : ∀ t ∈ r.head?, f t = true) : (xs ++ r).takeWhile (!f ·) = xs := by
  rw [List.takeWhile_append_of_pos fun t ht => by rw [hx t ht]; rfl]
  cases r with
  | nil => exact List.append_nil xs
  | cons t r =>
    have hend : f t = true := hr t rfl
    rw [List.takeWhile_cons_of_neg (by simp [hend]), List.append_nil]

theorem run_cancel {f : Token → Bool} {xs ys r s : List Token} (hx : ∀ t ∈ xs, f t = false)
    (hy : ∀ t ∈ ys, f t = false) (hr : ∀ t ∈ r.head?, f t = true) (hs : ∀ t ∈ s.head?, f t = true)
    (h : xs ++ r = ys ++ s) : xs = ys ∧ r = s := by
  have hruns : xs = ys := by rw [← takeWhile_run hx hr, h, takeWhile_run hy hs]
  subst hruns
  exact ⟨rfl, List.append_cancel_left h⟩

end Token

/-! ## Conditions -/

/-- How two conditions are combined. -/
inductive Connective
  | both
  | either
  deriving DecidableEq

/-- Comparisons combined by conjunction and disjunction. -/
inductive Condition (α : Type)
  | compare (comparison : α)
  | join (k : Connective) (left right : Condition α)
  deriving DecidableEq

namespace Condition

variable {α β : Type}

/-- The comparisons from left to right. -/
def comparisons : Condition α → List α
  | compare x => [x]
  | join _ l r => l.comparisons ++ r.comparisons

def map (f : α → β) : Condition α → Condition β
  | compare x => compare (f x)
  | join k l r => join k (l.map f) (r.map f)

end Condition

/-- The tree of a predicate, with what is made of its comparisons. -/
def Predicate.condition {α : Type} (f : Comparison × Property × Operand → α) :
    Predicate → Condition α
  | compare op p c => .compare (f (op, p, c))
  | both l r => .join .both (l.condition f) (r.condition f)
  | either l r => .join .either (l.condition f) (r.condition f)

theorem Predicate.comparisons_condition {α : Type} (f : Comparison × Property × Operand → α)
    (p : Predicate) : (p.condition f).comparisons = p.comparisons.map f := by
  induction p with
  | compare op p c => rfl
  | both l r hl hr | either l r hl hr =>
    rw [condition, Condition.comparisons, comparisons, hl, hr, List.map_append]

theorem Comparison.mem_all (op : Comparison) : op ∈ all := by
  cases op <;> decide

/-- Operators are told apart by how they are written if no two are written the same. -/
theorem Comparison.injective_of_nodup {f : Comparison → String} (h : (all.map f).Nodup) :
    Function.Injective f := fun op op' =>
  List.inj_on_of_nodup_map h op.mem_all op'.mem_all

/-- A column compared with an operand. -/
structure Compared (ν : Type) where
  column : String
  op : Comparison
  operand : ν
  deriving DecidableEq

/-! ## Grammars -/

/-- How conditions are written, given how operands of some kind are. -/
structure Grammar (ν : Type) where
  column : String → List Token
  operator : Comparison → String
  operand : ν → List Token
  /-- What stands between two conditions, inside the parentheses around both. -/
  between : Connective → String

namespace Grammar

open Token

variable {ν : Type} (g : Grammar ν)

/-- The condition that some tokens are. -/
inductive Reads : List Token → Condition (Compared ν) → Prop
  | compare {column : String} {op : Comparison} {operand : ν} (hcolumn : Solid (g.column column))
      (hoperand : Solid (g.operand operand)) :
      Reads (g.column column ++ (marks (" " ++ g.operator op ++ " ") ++ g.operand operand))
        (.compare ⟨column, op, operand⟩)
  | join {k : Connective} {xs ys : List Token} {l r : Condition (Compared ν)}
      (left : Reads xs l) (right : Reads ys r) :
      Reads (marks "(" ++ (xs ++ (marks (g.between k) ++ (ys ++ marks ")")))) (.join k l r)

/-- The condition that a text is. -/
def ReadsText (quote : Char) (text : String) (c : Condition (Compared ν)) : Prop :=
  ∃ tokens, lex quote text = some tokens ∧ g.Reads tokens c

/-- A grammar whose words tell columns, operators, operands and connectives apart. -/
structure Clear : Prop where
  column : Function.Injective g.column
  operand : Function.Injective g.operand
  operator : Function.Injective g.operator
  operator_unbroken : ∀ op, isUnbroken (g.operator op) = true
  between_ends : ∀ k rest, Ends (marks (g.between k) ++ rest)
  /-- What stands between conditions is found out before it ends. -/
  between_cancel : ∀ {k k' r s}, marks (g.between k) ++ r = marks (g.between k') ++ s → k = k'

variable {g} {xs ys r s : List Token} {c c' : Condition (Compared ν)}

theorem ends_close (rest : List Token) : Ends (marks ")" ++ rest) :=
  ends_cons (by decide)

theorem ends_operator (op : Comparison) (rest : List Token) :
    Ends (marks (" " ++ g.operator op ++ " ") ++ rest) := by
  rw [String.append_assoc, marks_append]
  exact ends_cons (by decide)

/-- A comparison does not begin like a combination. -/
theorem not_opens (h : Solid xs) : xs ++ r ≠ marks "(" ++ s := by
  intro heq
  obtain ⟨t, tokens, rfl⟩ := List.exists_cons_of_ne_nil h.nonempty
  obtain ⟨rfl, -⟩ := List.cons.inj heq
  cases h.unbroken (mark '(') List.mem_cons_self

/-- The operator and the operand of a comparison, given what ends it. -/
theorem Clear.compare_cancel (hg : g.Clear) {op op' : Comparison} {v v' : ν}
    (hv : Solid (g.operand v)) (hv' : Solid (g.operand v')) (hr : Ends r) (hs : Ends s)
    (h : marks (" " ++ g.operator op ++ " ") ++ (g.operand v ++ r) =
      marks (" " ++ g.operator op' ++ " ") ++ (g.operand v' ++ s)) :
    op = op' ∧ v = v' ∧ r = s := by
  have hword : ∀ op, ∀ t ∈ marks (g.operator op), t.isDivider = false := fun op =>
    unbroken_marks (hg.operator_unbroken op)
  have hblank : ∀ rest, Ends (marks " " ++ rest) := fun _ => ends_cons (by decide)
  simp only [marks_append, List.append_assoc, List.append_cancel_left_eq] at h
  obtain ⟨hop, h⟩ := run_cancel (hword op) (hword op') (hblank _) (hblank _) h
  obtain ⟨hoperand, h⟩ := run_cancel hv.unbroken hv'.unbroken hr hs
    (List.append_cancel_left h)
  exact ⟨hg.operator (marks_injective hop), hg.operand hoperand, h⟩

/-- **One reading, whatever follows.** Two conditions that begin the same tokens, each with an end
after it, are one condition. -/
theorem Reads.cancel (hg : g.Clear) (h : g.Reads xs c) (h' : g.Reads ys c') (hr : Ends r)
    (hs : Ends s) (heq : xs ++ r = ys ++ s) : c = c' ∧ r = s := by
  -- The conditions inside parentheses are followed by a connective and by a parenthesis, so the
  -- induction is over what may follow.
  induction h generalizing ys c' r s with
  | compare hcolumn hoperand =>
    cases h' with
    | compare hcolumn' hoperand' =>
      simp only [List.append_assoc] at heq
      obtain ⟨hname, heq⟩ := run_cancel hcolumn.unbroken hcolumn'.unbroken
        (ends_operator _ _) (ends_operator _ _) heq
      obtain ⟨rfl, rfl, rfl⟩ := hg.compare_cancel hoperand hoperand' hr hs heq
      rw [hg.column hname]
      exact ⟨rfl, rfl⟩
    | join =>
      simp only [List.append_assoc] at heq
      exact (not_opens hcolumn heq).elim
  | join _ _ hleft hright =>
    cases h' with
    | compare hcolumn' =>
      simp only [List.append_assoc] at heq
      exact (not_opens hcolumn' heq.symm).elim
    | join left' right' =>
      simp only [List.append_assoc, List.append_cancel_left_eq] at heq
      obtain ⟨rfl, heq⟩ := hleft left' (hg.between_ends _ _) (hg.between_ends _ _) heq
      obtain rfl := hg.between_cancel heq
      obtain ⟨rfl, heq⟩ := hright right' (ends_close _) (ends_close _)
        (List.append_cancel_left heq)
      exact ⟨rfl, List.append_cancel_left heq⟩

/-- Tokens are one condition at most. -/
theorem Reads.unique (hg : g.Clear) (h : g.Reads xs c) (h' : g.Reads xs c') : c = c' :=
  (h.cancel hg h' ends_nil ends_nil rfl).1

/-! ## Writing conditions -/

variable (g) in
/-- The tokens of a condition. -/
def tokens : Condition (Compared ν) → List Token
  | .compare x =>
    g.column x.column ++ (marks (" " ++ g.operator x.op ++ " ") ++ g.operand x.operand)
  | .join k l r => marks "(" ++ (tokens l ++ (marks (g.between k) ++ (tokens r ++ marks ")")))

variable (g) in
/-- The text of a condition. -/
def text (quote : Char) (c : Condition (Compared ν)) : String :=
  write quote (g.tokens c)

variable (g) in
/-- No quote stands in the words of a grammar. -/
structure Unquoted (quote : Char) : Prop where
  dividers : quote ∉ dividers
  operator : ∀ op, quote ∉ (g.operator op).toList
  between : ∀ k, quote ∉ (g.between k).toList

variable (g) in
/-- A comparison whose column and operand are read as they are written. -/
structure Legible (quote : Char) (x : Compared ν) : Prop where
  column : Solid (g.column x.column)
  operand : Solid (g.operand x.operand)
  column_separate : Separate quote (g.column x.column)
  operand_separate : Separate quote (g.operand x.operand)

variable {quote : Char}

theorem text_compare (x : Compared ν) : g.text quote (.compare x) =
    write quote (g.column x.column) ++ " " ++ g.operator x.op ++ " " ++
      write quote (g.operand x.operand) := by
  simp [text, tokens, String.append_assoc]

theorem text_join (k : Connective) (l r : Condition (Compared ν)) : g.text quote (.join k l r) =
    "(" ++ g.text quote l ++ g.between k ++ g.text quote r ++ ")" := by
  simp [text, tokens, String.append_assoc]

/-- The tokens of a condition are that condition. -/
theorem reads_tokens (h : ∀ x ∈ c.comparisons, g.Legible quote x) : g.Reads (g.tokens c) c := by
  induction c with
  | compare x =>
    have hx : g.Legible quote x := h x List.mem_cons_self
    exact .compare hx.column hx.operand
  | join k l r hl hr =>
    obtain ⟨hleft, hright⟩ := List.forall_mem_append.1 h
    exact .join (hl hleft) (hr hright)

/-- The tokens of a condition can be read from its text. -/
theorem separate_tokens (hg : g.Clear) (hq : g.Unquoted quote)
    (h : ∀ x ∈ c.comparisons, g.Legible quote x) : Separate quote (g.tokens c) := by
  obtain ⟨hblank, -, hopening, hclosing⟩ :
      quote ≠ ' ' ∧ quote ≠ '\n' ∧ quote ≠ '(' ∧ quote ≠ ')' := by
    simpa [dividers] using hq.dividers
  induction c with
  | compare x =>
    have hx : g.Legible quote x := h x List.mem_cons_self
    have hop : quote ∉ (" " ++ g.operator x.op ++ " ").toList := by
      simpa [hblank] using hq.operator x.op
    exact hx.column_separate.append (separate_marks_append hop hx.operand_separate)
      (ends_operator _ _).name?_eq_none
  | join k l r hl hr =>
    obtain ⟨hleft, hright⟩ := List.forall_mem_append.1 h
    have hclose : Separate quote (g.tokens r ++ marks ")") :=
      (hr hright).append ⟨hclosing.symm, trivial⟩ (by simp [marks, name?])
    exact ⟨hopening.symm, (hl hleft).append (separate_marks_append (hq.between k) hclose)
      (hg.between_ends k _).name?_eq_none⟩

/-- **Reading conditions back.** The text of a condition is that condition, and no other. -/
theorem readsText_text_iff (hg : g.Clear) (hq : g.Unquoted quote)
    (h : ∀ x ∈ c.comparisons, g.Legible quote x) :
    g.ReadsText quote (g.text quote c) c' ↔ c' = c := by
  have hlex : lex quote (g.text quote c) = some (g.tokens c) :=
    lex_write (separate_tokens hg hq h)
  constructor
  · rintro ⟨tokens, hread, hc'⟩
    obtain rfl := Option.some.inj (hread.symm.trans hlex)
    exact hc'.unique hg (reads_tokens h)
  · rintro rfl
    exact ⟨_, hlex, reads_tokens h⟩

end Grammar

end EntityMapper
