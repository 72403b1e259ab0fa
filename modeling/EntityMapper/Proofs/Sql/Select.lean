import EntityMapper.Proofs.Command.Parameters
import EntityMapper.Proofs.Query.Grammar
import EntityMapper.Proofs.Sql.Names
import EntityMapper.Sql.Select

/-!
# Selects are read back

The text of a select is read in one way only: as the columns that are read, in order; as the table;
and as a condition with the tree of the predicate, which has columns for properties and the names of
parameters for constants (`Dialect.selectText_unambiguous`). The names are the next ones, in order,
and the parameters have the values of the constants, in the order of the comparisons. Columns and
tables may have any names. The alias of the table and the names of parameters are written without
quotes, so they have to be words.
-/

namespace EntityMapper

open Token

/-! ## The grammar of selects -/

namespace Select

/-- A column of an aliased table. -/
def columnTokens (tableAlias column : String) : List Token :=
  marks (tableAlias ++ ".") ++ [.name column]

/-- The grammar of conditions on an aliased table. -/
def grammar (tableAlias : String) : Grammar String where
  column := columnTokens tableAlias
  operator
    | .equal => "="
    | .notEqual => "<>"
    | .less => "<"
    | .lessOrEqual => "<="
    | .greater => ">"
    | .greaterOrEqual => ">="
  operand := marks
  between
    | .both => " AND "
    | .either => " OR "

/-- What a select says. -/
structure Reading where
  columns : List String
  table : QualifiedName
  condition : Option (Condition (Compared String))
  deriving DecidableEq

/-- The columns that are read; without columns, the number one. -/
def listTokens (tableAlias : String) : List String → List Token
  | [] => marks "1"
  | [column] => columnTokens tableAlias column
  | column :: next :: rest =>
    columnTokens tableAlias column ++ (marks ", " ++ listTokens tableAlias (next :: rest))

def tableTokens (t : QualifiedName) : List Token :=
  match t.schema with
  | some schema => [.name schema, .mark '.', .name t.name]
  | none => [.name t.name]

/-- A select up to the alias of the table. -/
def headTokens (tableAlias : String) (columns : List String) (t : QualifiedName) : List Token :=
  marks "SELECT " ++ (listTokens tableAlias columns ++
    (marks "\nFROM " ++ (tableTokens t ++ marks (" AS " ++ tableAlias))))

/-- What stands after that: nothing, or a condition. -/
inductive ReadsTail (tableAlias : String) :
    List Token → Option (Condition (Compared String)) → Prop
  | all : ReadsTail tableAlias [] none
  | matching {tokens : List Token} {c : Condition (Compared String)}
      (condition : (grammar tableAlias).Reads tokens c) :
      ReadsTail tableAlias (marks "\nWHERE " ++ tokens) (some c)

/-- What some tokens say. -/
def Reads (tableAlias : String) (tokens : List Token) (r : Reading) : Prop :=
  ∃ tail, tokens = headTokens tableAlias r.columns r.table ++ tail ∧
    ReadsTail tableAlias tail r.condition

/-- What a text says. -/
def ReadsText (quote : Char) (tableAlias text : String) (r : Reading) : Prop :=
  ∃ tokens, lex quote text = some tokens ∧ Reads tableAlias tokens r

/-! ## One reading -/

section Unique

variable {tableAlias column : String} {columns columns' : List String}
  {t t' : QualifiedName} {r s : List Token} {reading reading' : Reading}

theorem columnTokens_injective : Function.Injective (columnTokens tableAlias) := by
  intro c c' h
  simpa [columnTokens] using h

/-- Operators are written as the grammar says. -/
theorem operator_grammar (tableAlias : String) : (grammar tableAlias).operator = Comparison.sql := by
  funext op
  cases op <;> rfl

theorem grammar_clear (tableAlias : String) : (grammar tableAlias).Clear where
  column := columnTokens_injective
  operand := marks_injective
  operator := by
    rw [operator_grammar]
    exact Comparison.injective_of_nodup (by decide)
  operator_unbroken op := by
    rw [operator_grammar]
    cases op <;> decide
  between_ends k rest := by
    cases k <;> simp [Ends, grammar, marks, isDivider, dividers]
  between_cancel {k k' r s} h := by
    cases k <;> cases k'
    case both.both | either.either => rfl
    case both.either | either.both => simp [grammar, marks] at h

/-- The names in a list are its columns. -/
theorem filterMap_listTokens (columns : List String) :
    (listTokens tableAlias columns).filterMap (·.name?) = columns := by
  have hcolumn : ∀ c, (columnTokens tableAlias c).filterMap (·.name?) = [c] := fun c => by
    rw [columnTokens, List.filterMap_append, filterMap_name?_marks]
    rfl
  induction columns with
  | nil => exact filterMap_name?_marks "1"
  | cons c rest ih =>
    cases rest with
    | nil => exact hcolumn c
    | cons next rest =>
      rw [listTokens, List.filterMap_append, List.filterMap_append, hcolumn, ih,
        filterMap_name?_marks]
      rfl

/-- A list of columns is on one line. -/
theorem notMem_listTokens (h : '\n' ∉ tableAlias.toList) :
    ∀ token ∈ listTokens tableAlias columns, (token == .mark '\n') = false := by
  have hcolumn : ∀ c, ∀ token ∈ columnTokens tableAlias c, (token == .mark '\n') = false := by
    intro c token htoken
    rcases List.mem_append.1 htoken with htoken | htoken
    · obtain ⟨char, hchar, rfl⟩ := List.mem_map.1 htoken
      rw [String.toList_append] at hchar
      have hne : char ≠ '\n' := by
        rintro rfl
        exact (List.mem_append.1 hchar).elim h (by decide)
      simpa using hne
    · rw [List.mem_singleton.1 htoken]
      rfl
  induction columns with
  | nil => simp [listTokens, marks]
  | cons c rest ih =>
    cases rest with
    | nil => exact hcolumn c
    | cons next rest =>
      refine List.forall_mem_append.2 ⟨hcolumn c, List.forall_mem_append.2 ⟨?_, ih⟩⟩
      simp [marks]

theorem tableTokens_injective : Function.Injective tableTokens := by
  intro t t' h
  obtain ⟨schema, n⟩ := t
  obtain ⟨schema', n'⟩ := t'
  cases schema <;> cases schema' <;> simp_all [tableTokens]

theorem unbroken_tableTokens : ∀ token ∈ tableTokens t, token.isDivider = false := by
  unfold tableTokens
  split <;> simp [isDivider, dividers]

/-- The columns and the table of a select, whatever follows. -/
theorem head_cancel (h : '\n' ∉ tableAlias.toList)
    (heq : headTokens tableAlias columns t ++ r = headTokens tableAlias columns' t' ++ s) :
    columns = columns' ∧ t = t' ∧ r = s := by
  -- The columns stand before the first line break, and the table before the first blank after it.
  simp only [headTokens, List.append_assoc, List.append_cancel_left_eq] at heq
  obtain ⟨hlist, heq⟩ := run_cancel (f := (· == .mark '\n')) (notMem_listTokens h)
    (notMem_listTokens h) (by simp [marks]) (by simp [marks]) heq
  have hends : ∀ rest, Ends (marks (" AS " ++ tableAlias) ++ rest) := fun rest => by
    rw [marks_append]
    exact ends_cons (t := .mark ' ') (by decide)
  obtain ⟨htable, heq⟩ := run_cancel unbroken_tableTokens unbroken_tableTokens (hends r) (hends s)
    (List.append_cancel_left heq)
  refine ⟨?_, tableTokens_injective htable, List.append_cancel_left heq⟩
  rw [← @filterMap_listTokens tableAlias columns, hlist, filterMap_listTokens]

theorem ReadsTail.unique {tail : List Token} {c c' : Option (Condition (Compared String))}
    (hc : ReadsTail tableAlias tail c) (hc' : ReadsTail tableAlias tail c') : c = c' := by
  cases hc with
  | all =>
    cases hc' with
    | all => rfl
  | matching hc =>
    generalize htail : marks "\nWHERE " ++ _ = tail at hc'
    cases hc' with
    | all => cases htail
    | matching hc' =>
      obtain rfl := List.append_cancel_left htail
      rw [hc.unique (grammar_clear tableAlias) hc']

/-- Tokens say one thing at most. -/
theorem Reads.unique (h : '\n' ∉ tableAlias.toList) {tokens : List Token}
    (hr : Reads tableAlias tokens reading) (hr' : Reads tableAlias tokens reading') :
    reading = reading' := by
  obtain ⟨columns, t, c⟩ := reading
  obtain ⟨columns', t', c'⟩ := reading'
  obtain ⟨tail, rfl, hc⟩ := hr
  obtain ⟨tail', heq, hc'⟩ := hr'
  obtain ⟨rfl, rfl, rfl⟩ := head_cancel h heq
  exact congrArg (Reading.mk columns t) (hc.unique hc')

end Unique

end Select

/-! ## Names for constants -/

namespace Predicate

/-- The condition that a predicate is written as, with the next names for its constants. -/
def named (names : ParameterNames) : Predicate → Condition (Compared String)
  | compare op p _ => .compare ⟨p.columnName, op, names.nameAt names.used⟩
  | both l r => .join .both (l.named names) (r.named (names.skip l.comparisons.length))
  | either l r => .join .either (l.named names) (r.named (names.skip l.comparisons.length))

variable (p : Predicate) (names : ParameterNames)

theorem operands_named :
    (p.named names).comparisons.map (·.operand) = names.upcoming p.comparisons.length := by
  induction p generalizing names with
  | compare op p c => rfl
  | both l r hl hr | either l r hl hr =>
    rw [named, Condition.comparisons, List.map_append, hl, hr, comparisons, List.length_append,
      ParameterNames.upcoming_add]

/-- The tree, the columns and the operators are those of the predicate. -/
theorem map_named : (p.named names).map (fun x => (x.column, x.op)) =
    p.condition fun x => (x.2.1.columnName, x.1) := by
  induction p generalizing names with
  | compare op p c => rfl
  | both l r hl hr | either l r hl hr => rw [named, Condition.map, hl, hr, condition]

/-- The parameters of a predicate: the next names for the constants, in order. -/
def parameters : List Parameter :=
  ((names.upcoming p.comparisons.length).zip (p.comparisons.map (·.2.2.value))).map
    fun x => ⟨x.1, x.2⟩

theorem map_name_parameters :
    (p.parameters names).map (·.name) = names.upcoming p.comparisons.length := by
  rw [parameters, List.map_map]
  exact List.map_fst_zip (by simp)

theorem map_value_parameters :
    (p.parameters names).map (·.value) = p.comparisons.map (·.2.2.value) := by
  rw [parameters, List.map_map]
  exact List.map_snd_zip (by simp)

variable (l r : Predicate)

/-- The parameters of two predicates, whichever way they are combined. -/
theorem parameters_append : (both l r).parameters names =
    l.parameters names ++ r.parameters (names.skip l.comparisons.length) := by
  rw [parameters, comparisons, List.length_append, ParameterNames.upcoming_add, List.map_append,
    List.zip_append (by simp), List.map_append]
  rfl

theorem skip_append : names.skip (both l r).comparisons.length =
    (names.skip l.comparisons.length).skip r.comparisons.length := by
  simp [ParameterNames.skip, comparisons, Nat.add_assoc]

end Predicate

/-! ## The text of a select -/

namespace Dialect

variable {d : Dialect} {tableAlias : String} {names : ParameterNames}

theorem write_columnTokens (d : Dialect) (tableAlias : String) (p : Property) :
    write d.quote (Select.columnTokens tableAlias p.columnName) =
      d.aliasedColumn tableAlias p := by
  simp [Select.columnTokens, aliasedColumn, delimit]

/-- The text of a predicate is that of the condition with the next names, its parameters have these
names, and the names after them are left. -/
theorem predicateText_eq (d : Dialect) (tableAlias : String) (p : Predicate)
    (names : ParameterNames) : d.predicateText tableAlias p names =
      ((Select.grammar tableAlias).text d.quote (p.named names), p.parameters names,
        names.skip p.comparisons.length) := by
  induction p generalizing names with
  | compare op p c =>
    rw [Predicate.named, Grammar.text_compare, Select.operator_grammar]
    simp [predicateText, ParameterNames.next, Select.grammar, write_columnTokens,
      Predicate.parameters, Predicate.comparisons, ParameterNames.upcoming, ParameterNames.skip]
  | both l r hl hr | either l r hl hr =>
    simp only [predicateText, hl, hr]
    rw [Predicate.named, Grammar.text_join]
    exact Prod.ext rfl (Prod.ext (Predicate.parameters_append names l r).symm
      (Predicate.skip_append names l r).symm)

/-! ## Tokens of a select -/

theorem grammar_unquoted (hd : d ∈ [sqlite, mysql]) (tableAlias : String) :
    (Select.grammar tableAlias).Unquoted d.quote where
  dividers := by
    rcases List.mem_pair.1 hd with rfl | rfl <;> decide
  operator op := by
    rw [Select.operator_grammar]
    rcases List.mem_pair.1 hd with rfl | rfl <;> cases op <;> decide
  between k := by
    rcases List.mem_pair.1 hd with rfl | rfl <;> cases k <;> simp [Select.grammar, sqlite, mysql]

/-- The names of parameters are words if their stem is one. -/
theorem isWord_nameAt (hd : d.Delimits) (h : IsWord d.quote names.stem) (n : Nat) :
    IsWord d.quote (names.nameAt n) := by
  have hdigits : (toString n).toList.all Char.isDigit = true := by
    rw [Nat.toString_eq_repr, Nat.toList_repr]
    exact List.all_eq_true.2 fun c => Nat.isDigit_of_mem_toDigits (by decide) (by decide)
  exact h.append (hd.notMem (isWords_toString n)) (isUnbroken_of_all (by decide) hdigits)

section Tokens

variable (hd : d.Delimits) (htable : IsWord d.quote tableAlias)

include hd htable

theorem isWord_alias : IsWord d.quote (tableAlias ++ ".") :=
  htable.append (hd.notMem (by decide)) (by decide)

theorem separate_columnTokens (column : String) :
    Separate d.quote (Select.columnTokens tableAlias column) :=
  separate_marks_append (isWord_alias hd htable).notMem ⟨by simp, trivial⟩

theorem legible_named (hstem : IsWord d.quote names.stem) (p : Predicate) :
    ∀ x ∈ (p.named names).comparisons, (Select.grammar tableAlias).Legible d.quote x := by
  intro x hx
  have hoperand : x.operand ∈ names.upcoming p.comparisons.length := by
    rw [← p.operands_named]
    exact List.mem_map_of_mem hx
  obtain ⟨n, -, hn⟩ := List.mem_map.1 hoperand
  have hword : IsWord d.quote x.operand := hn ▸ isWord_nameAt hd hstem n
  exact ⟨(isWord_alias hd htable).solid.append (by simp [isDivider]), hword.solid,
    separate_columnTokens hd htable x.column, hword.separate⟩

theorem separate_listTokens (columns : List String) :
    Separate d.quote (Select.listTokens tableAlias columns) := by
  induction columns with
  | nil => exact separate_marks (hd.notMem (by decide))
  | cons c rest ih =>
    have hcolumn := separate_columnTokens hd htable c
    cases rest with
    | nil => exact hcolumn
    | cons next rest =>
      exact hcolumn.append (separate_marks_append (hd.notMem (by decide)) ih) (by simp [marks])

theorem separate_headTokens (columns : List String) (t : QualifiedName) :
    Separate d.quote (Select.headTokens tableAlias columns t) := by
  have hend : Separate d.quote (marks (" AS " ++ tableAlias)) := by
    rw [marks_append]
    exact separate_marks_append (hd.notMem (by decide)) htable.separate
  have hpoint : '.' ≠ d.quote := by
    rintro heq
    cases hd.quote.symm.trans (congrArg isWordChar heq.symm)
  have htokens : Separate d.quote (Select.tableTokens t) := by
    unfold Select.tableTokens
    split
    · exact ⟨by simp, hpoint, by simp, trivial⟩
    · exact ⟨by simp, trivial⟩
  have hfrom : Separate d.quote (marks "\nFROM " ++
      (Select.tableTokens t ++ marks (" AS " ++ tableAlias))) :=
    separate_marks_append (hd.notMem (by decide)) (htokens.append hend (by simp [marks]))
  exact separate_marks_append (hd.notMem (by decide))
    ((separate_listTokens hd htable columns).append hfrom (by simp [marks]))

end Tokens

theorem write_listTokens (tableAlias : String) (p : Property) (properties : List Property) :
    write d.quote (Select.listTokens tableAlias ((p :: properties).map (·.columnName))) =
      joined ", " ((p :: properties).map (d.aliasedColumn tableAlias)) := by
  induction properties generalizing p with
  | nil => exact write_columnTokens d tableAlias p
  | cons q properties ih =>
    simp only [List.map_cons, Select.listTokens, write_append, write_marks, write_columnTokens,
      joined_cons_cons, String.append_assoc] at ih ⊢
    rw [ih]

theorem write_tableTokens (t : QualifiedName) :
    write d.quote (Select.tableTokens t) = d.delimitTable t := by
  unfold Select.tableTokens delimitTable
  cases t.schema with
  | none => simp [delimit]
  | some schema =>
    simp [delimit, String.append_assoc]

theorem write_headTokens (s : Select) :
    write d.quote (Select.headTokens s.tableAlias (s.projection.map (·.columnName)) s.table) =
      "SELECT " ++ d.selectList s ++ "\nFROM " ++ d.delimitTable s.table ++ " AS " ++
        s.tableAlias := by
  have hlist : write d.quote (Select.listTokens s.tableAlias (s.projection.map (·.columnName))) =
      d.selectList s := by
    unfold selectList
    cases hprojection : s.projection with
    | nil => rfl
    | cons p properties => exact write_listTokens s.tableAlias p properties
  simp [Select.headTokens, hlist, write_tableTokens, String.append_assoc]

/-! ## Reading selects back -/

/-- The text of a select is that of the tokens of what it says. -/
theorem exists_tail (hd : d ∈ [sqlite, mysql]) (s : Select)
    (htable : IsWord d.quote s.tableAlias) (hstem : IsWord d.quote names.stem) :
    ∃ tail, (d.selectText s names).1 = write d.quote
        (Select.headTokens s.tableAlias (s.projection.map (·.columnName)) s.table ++ tail) ∧
      Separate d.quote tail ∧ (∀ t ∈ tail.head?, t.name? = none) ∧
      Select.ReadsTail s.tableAlias tail (s.predicate.map (·.named names)) := by
  unfold selectText
  cases s.predicate with
  | none => exact ⟨[], by rw [List.append_nil, write_headTokens], trivial, by simp, .all⟩
  | some p =>
    have hlegible := legible_named (delimits_of_mem hd) htable hstem p
    refine ⟨marks "\nWHERE " ++ (Select.grammar s.tableAlias).tokens (p.named names), ?_,
      separate_marks_append ((delimits_of_mem hd).notMem (by decide))
        (Grammar.separate_tokens (Select.grammar_clear _) (grammar_unquoted hd _) hlegible),
      by simp [marks], .matching (Grammar.reads_tokens hlegible)⟩
    simp only [predicateText_eq, write_append, write_headTokens, write_marks, Grammar.text,
      String.append_assoc]

theorem parameters_selectText (s : Select) :
    (d.selectText s names).2 = s.predicate.elim [] (·.parameters names) := by
  unfold selectText
  cases s.predicate with
  | none => rfl
  | some p => simp only [predicateText_eq, Option.elim]

/-- **Selects are unambiguous.** The text of a select, lexed with the names of the dialect between
quotes, is read in one way: as the columns, in order, the table, and a condition with the tree of
the predicate and its columns. What stands for its constants are the names of the parameters, in
order; the parameters have the values of the constants; and their names are the next ones, no two
the same. -/
theorem selectText_unambiguous (hd : d ∈ [sqlite, mysql]) {s : Select} {text : String}
    {parameters : List Parameter} (htable : IsWord d.quote s.tableAlias)
    (hstem : IsWord d.quote names.stem) (h : d.selectText s names = (text, parameters)) :
    ∃ condition : Option (Condition (Compared String)),
      (∀ r, Select.ReadsText d.quote s.tableAlias text r ↔
        r = ⟨s.projection.map (·.columnName), s.table, condition⟩) ∧
      condition.map (·.map fun x => (x.column, x.op)) =
        s.predicate.map (·.condition fun x => (x.2.1.columnName, x.1)) ∧
      (condition.toList.flatMap (·.comparisons)).map (·.operand) = parameters.map (·.name) ∧
      parameters.map (·.value) =
        (s.predicate.toList.flatMap (·.comparisons)).map (·.2.2.value) ∧
      parameters.map (·.name) = names.upcoming parameters.length ∧
      (parameters.map (·.name)).Nodup ∧
      ∀ p ∈ s.predicate,
        (d.predicateText s.tableAlias p names).2.2 = names.skip parameters.length := by
  obtain ⟨tail, htext, hseparate, hhead, htail⟩ := exists_tail hd s htable hstem
  have hparameters : (d.selectText s names).2 = s.predicate.elim [] (·.parameters names) :=
    parameters_selectText s
  rw [h] at htext hparameters
  refine ⟨s.predicate.map (·.named names), fun r => ?_, ?_⟩
  · have hlex : lex d.quote text = some (Select.headTokens s.tableAlias
        (s.projection.map (·.columnName)) s.table ++ tail) := by
      rw [show text = _ from htext]
      exact lex_write ((separate_headTokens (delimits_of_mem hd) htable _ _).append hseparate hhead)
    have hline : '\n' ∉ s.tableAlias.toList := fun hmem => by
      cases List.all_eq_true.1 htable.unbroken _ hmem
    constructor
    · rintro ⟨tokens, hread, hr⟩
      obtain rfl := Option.some.inj (hread.symm.trans hlex)
      exact hr.unique hline ⟨tail, rfl, htail⟩
    · rintro rfl
      exact ⟨_, hlex, tail, rfl, htail⟩
  · obtain rfl : parameters = _ := hparameters
    cases s.predicate with
    | none => exact ⟨rfl, rfl, rfl, rfl, .nil, nofun⟩
    | some p =>
      have hlength : (p.parameters names).length = p.comparisons.length := by
        simp [Predicate.parameters]
      simp only [Option.elim, Option.map_some, Option.toList_some, List.flatMap_singleton,
        p.map_named, p.operands_named, p.map_name_parameters, p.map_value_parameters, hlength,
        predicateText_eq, Option.mem_some_iff]
      refine ⟨trivial, trivial, trivial, trivial, ParameterNames.nodup_upcoming, ?_⟩
      rintro _ rfl
      rfl

/-- Some notes, by a column whose name would end the statement if quotes were not doubled. -/
def hostileSelect : Select where
  source := ⟨1⟩
  tableAlias := "n"
  entityType := { Notes.type with schema := some "my\"" }
  predicate := some (.both
    (.either (.compare .equal Notes.hostile ⟨.text "New", false⟩)
      (.compare .less Notes.version ⟨.int 3, false⟩))
    (.compare .notEqual Notes.key ⟨.bigInt 1, false⟩))
  projection := [Notes.key, Notes.hostile]

theorem selectText_unambiguous_hostile :
    sqlite ∈ [sqlite, mysql] ∧ IsWord '"' "n" ∧ IsWord '"' "@p" ∧ ∃ text,
      sqlite.selectText hostileSelect { used := 3 } =
        (text, [⟨"@p3", .text "New"⟩, ⟨"@p4", .int 3⟩, ⟨"@p5", .bigInt 1⟩]) ∧
      ∃ condition : Condition (Compared String),
        (∀ r, Select.ReadsText '"' "n" text r ↔
          r = ⟨["Id", "Body\" = 1; DROP TABLE \"Note"], ⟨some "my\"", "Note"⟩, some condition⟩) ∧
        condition.map (fun x => (x.column, x.op)) = .join .both
          (.join .either (.compare ("Body\" = 1; DROP TABLE \"Note", .equal))
            (.compare ("Version", .less)))
          (.compare ("Id", .notEqual)) ∧
        condition.comparisons.map (·.operand) = ["@p3", "@p4", "@p5"] := by
  have hdialect : sqlite ∈ [sqlite, mysql] := List.mem_cons_self
  have htable : IsWord '"' "n" := ⟨by decide, by decide, by decide⟩
  have hstem : IsWord '"' ({ used := 3 } : ParameterNames).stem :=
    ⟨by decide, by decide, by decide⟩
  have htext : sqlite.selectText hostileSelect { used := 3 } =
      ((sqlite.selectText hostileSelect { used := 3 }).1,
        [⟨"@p3", .text "New"⟩, ⟨"@p4", .int 3⟩, ⟨"@p5", .bigInt 1⟩]) := rfl
  obtain ⟨condition, hreads, htree, hoperands, -⟩ :=
    selectText_unambiguous (s := hostileSelect) hdialect htable hstem htext
  obtain ⟨c, rfl, hc⟩ := Option.map_eq_some_iff.1 htree
  refine ⟨hdialect, htable, hstem, _, htext, c, hreads, hc.trans (by decide), ?_⟩
  simpa using hoperands

end Dialect

end EntityMapper
