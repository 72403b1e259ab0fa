import EntityMapper.Proofs.Sql.Syntax

/-!
# Reading names back

`lex` reads a text in which names stand between quotes, a doubled quote inside a name standing for
one. Every name and every character outside names is a token of its own, and a text that ends inside
a name is refused.

A name that is written between quotes is read as that name, whatever it holds, unless another quote
follows it (`lexFrom_encode`). Words without quotes are read character by character
(`lexFrom_plain`). So a text made of pieces is read as those pieces if a word follows every name
(`lex_textAll`).
-/

namespace EntityMapper

/-! ## Tokens -/

/-- A token of a text in which names stand between quotes. -/
inductive Token
  | name (s : String)
  /-- A character outside names. -/
  | mark (c : Char)
  deriving DecidableEq

namespace Token

/-- The name, of a name. -/
def name? : Token → Option String
  | name s => some s
  | mark _ => none

/-- The character, of a character outside names. -/
def mark? : Token → Option Char
  | name _ => none
  | mark c => some c

/-- The characters of a text outside names. -/
def marks (s : String) : List Token :=
  s.toList.map mark

/-- Where the reader of a text is. -/
inductive Place
  | outside
  /-- Inside a name, of which some is read. -/
  | inside (read : List Char)
  /-- After a quote inside a name, which ends the name unless another one follows. -/
  | quoted (read : List Char)

/-- The tokens of a text from some place on. -/
def lexFrom (quote : Char) : Place → List Char → Option (List Token)
  | .outside, [] => some []
  | .inside _, [] => none
  | .quoted read, [] => some [name (String.ofList read)]
  | .outside, c :: rest =>
    if c = quote then lexFrom quote (.inside []) rest
    else (lexFrom quote .outside rest).map (mark c :: ·)
  | .inside read, c :: rest =>
    if c = quote then lexFrom quote (.quoted read) rest
    else lexFrom quote (.inside (read ++ [c])) rest
  | .quoted read, c :: rest =>
    if c = quote then lexFrom quote (.inside (read ++ [quote])) rest
    else (lexFrom quote .outside rest).map fun tokens =>
      name (String.ofList read) :: mark c :: tokens

/-- The tokens of a text. -/
def lex (quote : Char) (text : String) : Option (List Token) :=
  lexFrom quote .outside text.toList

variable {quote : Char} {read rest : List Char} {s : String}

/-- Characters other than quotes are tokens outside names. -/
theorem lexFrom_plain (h : quote ∉ s.toList) :
    lexFrom quote .outside (s.toList ++ rest) =
      (lexFrom quote .outside rest).map (marks s ++ ·) := by
  rw [marks]
  generalize s.toList = chars at h
  induction chars with
  | nil => simp
  | cons c chars ih =>
    obtain ⟨hne, hrest⟩ := not_or.1 (List.mem_cons.not.1 h)
    rw [List.cons_append, lexFrom, if_neg (Ne.symm hne), ih hrest, Option.map_map]
    rfl

/-- Inside a name, doubled quotes are read as one. -/
theorem lexFrom_double (chars : List Char) :
    lexFrom quote (.inside read) (Quoted.double quote chars ++ rest) =
      lexFrom quote (.inside (read ++ chars)) rest := by
  induction chars generalizing read with
  | nil => simp
  | cons c chars ih =>
    by_cases h : c = quote
    · simp [Quoted.double, lexFrom, h, ih]
    · simp [Quoted.double, lexFrom, h, ih]

/-- A quote that is not doubled ends a name. -/
theorem lexFrom_quoted (h : quote ∉ rest.head?) :
    lexFrom quote (.quoted read) rest =
      (lexFrom quote .outside rest).map (name (String.ofList read) :: ·) := by
  cases rest with
  | nil => rfl
  | cons c rest =>
    have hne : c ≠ quote := fun heq => h (by simp [heq])
    rw [lexFrom, lexFrom, if_neg hne, if_neg hne, Option.map_map]
    rfl

/-- A name between quotes is read as the name, whatever characters it has. -/
theorem lexFrom_encode (h : quote ∉ rest.head?) :
    lexFrom quote .outside ((Quoted.encode quote s).toList ++ rest) =
      (lexFrom quote .outside rest).map (name s :: ·) := by
  calc lexFrom quote .outside ((Quoted.encode quote s).toList ++ rest)
      = lexFrom quote (.inside []) (Quoted.double quote s.toList ++ quote :: rest) := by
        simp [Quoted.encode, lexFrom]
    _ = lexFrom quote (.quoted s.toList) rest := by
        rw [lexFrom_double, List.nil_append, lexFrom, if_pos rfl]
    _ = (lexFrom quote .outside rest).map (name s :: ·) := by
        rw [lexFrom_quoted h, String.ofList_toList]

end Token

/-! ## Pieces -/

namespace Piece

/-- The tokens that a piece is meant to be. -/
def tokens : Piece → List Token
  | plain s => Token.marks s
  | name s => [.name s]
  | placeholder parameter => Token.marks (Dialect.parameterText parameter)

/-- The name, of a name. -/
def name? : Piece → Option String
  | name s => some s
  | _ => none

@[simp] theorem name?_plain (s : String) : (plain s).name? = none := rfl

@[simp] theorem name?_name (s : String) : (name s).name? = some s := rfl

/-- Pieces that cannot be taken for more of a name before them. -/
def Follows : List Piece → Prop
  | [] => True
  | plain s :: _ => s ≠ ""
  | _ => False

/-- Quotes stand around names only, and a name is last or has a word after it. -/
def Readable (quote : Char) : List Piece → Prop
  | [] => True
  | plain s :: rest => quote ∉ s.toList ∧ Readable quote rest
  | name _ :: rest => Follows rest ∧ Readable quote rest
  | placeholder parameter :: rest =>
    quote ∉ (Dialect.parameterText parameter).toList ∧ Readable quote rest

variable {d : Dialect} {quote : Char} {s separator : String} {pieces others rest : List Piece}

theorem Follows.append (h : Follows pieces) (hothers : Follows others) :
    Follows (pieces ++ others) := by
  cases pieces with
  | nil => exact hothers
  | cons piece pieces => cases piece <;> exact h

/-- A word keeps what is before it apart from what is after it. -/
theorem Readable.append (h : Readable quote pieces) (hothers : Readable quote others)
    (hfollows : Follows others) : Readable quote (pieces ++ others) := by
  induction pieces with
  | nil => exact hothers
  | cons piece pieces ih =>
    cases piece with
    | plain s => exact ⟨h.1, ih h.2⟩
    | placeholder parameter => exact ⟨h.1, ih h.2⟩
    | name n => exact ⟨h.1.append hfollows, ih h.2⟩

theorem readable_separated (hs : separator ≠ "") (hquote : quote ∉ separator.toList)
    {items : List (List Piece)} (h : ∀ item ∈ items, Readable quote item) :
    Readable quote (separated separator items) := by
  induction items with
  | nil => trivial
  | cons item rest ih =>
    obtain ⟨hitem, hrest⟩ := List.forall_mem_cons.1 h
    cases rest with
    | nil => exact hitem
    | cons other rest => exact hitem.append ⟨hquote, ih hrest⟩ hs

/-- What may follow a name does not begin with a quote. -/
theorem head?_textAll (hread : Readable d.quote pieces) (hfollows : Follows pieces) :
    d.quote ∉ (textAll d pieces).toList.head? := by
  cases pieces with
  | nil => simp
  | cons piece rest =>
    cases piece with
    | name | placeholder => exact hfollows.elim
    | plain s =>
      have hquote : d.quote ∉ s.toList := hread.1
      obtain ⟨c, chars, hs⟩ := List.exists_cons_of_ne_nil (String.toList_eq_nil_iff.not.2 hfollows)
      rw [hs] at hquote
      simp only [textAll_cons, text_plain, String.toList_append, hs, List.cons_append,
        List.head?_cons, Option.mem_some_iff]
      exact fun heq => hquote (heq ▸ List.mem_cons_self)

/-- **Reading pieces.** A readable text is read as the pieces it is made of. -/
theorem lex_textAll (hread : Readable d.quote pieces) :
    Token.lex d.quote (textAll d pieces) = some (pieces.flatMap tokens) := by
  induction pieces with
  | nil => rfl
  | cons piece rest ih =>
    rw [Token.lex, textAll_cons, String.toList_append, List.flatMap_cons]
    cases piece with
    | plain s =>
      obtain ⟨hquote, hrest⟩ := hread
      rw [text_plain, Token.lexFrom_plain hquote, ← Token.lex, ih hrest]
      rfl
    | placeholder parameter =>
      obtain ⟨hquote, hrest⟩ := hread
      rw [text_placeholder, Token.lexFrom_plain hquote, ← Token.lex, ih hrest]
      rfl
    | name s =>
      obtain ⟨hfollows, hrest⟩ := hread
      rw [text_name, Dialect.delimit, Token.lexFrom_encode (head?_textAll hrest hfollows),
        ← Token.lex, ih hrest]
      rfl

/-- The names that are read are those that were written. -/
theorem name?_tokens (pieces : List Piece) :
    (pieces.flatMap tokens).filterMap (·.name?) = pieces.filterMap (·.name?) := by
  have hmarks : ∀ s, (Token.marks s).filterMap (·.name?) = [] := fun s => by
    simp [Token.marks, List.filterMap_map, Token.name?]
  induction pieces with
  | nil => rfl
  | cons piece pieces ih =>
    rw [List.flatMap_cons, List.filterMap_append, ih]
    cases piece with
    | plain | placeholder => rw [tokens, hmarks]; rfl
    | name s => rfl

/-- The piece with any name left out. -/
def unnamed : Piece → Piece
  | name _ => name ""
  | piece => piece

@[simp] theorem unnamed_plain (s : String) : (plain s).unnamed = plain s := rfl

@[simp] theorem unnamed_name (s : String) : (name s).unnamed = name "" := rfl

@[simp] theorem unnamed_placeholder (parameter : Option String) :
    (placeholder parameter).unnamed = placeholder parameter := rfl

/-- What is read outside names does not depend on them. -/
theorem mark?_tokens (pieces : List Piece) :
    (pieces.flatMap tokens).map (·.mark?) =
      ((pieces.map unnamed).flatMap tokens).map (·.mark?) := by
  rw [List.flatMap_map, List.map_flatMap, List.map_flatMap]
  congr 1
  funext piece
  cases piece <;> rfl

theorem map_unnamed_separated (items : List (List Piece)) :
    (separated separator items).map unnamed =
      separated separator (items.map (·.map unnamed)) := by
  induction items with
  | nil => rfl
  | cons item rest ih =>
    cases rest with
    | nil => rfl
    | cons other rest =>
      rw [separated_cons_cons, List.map_append, List.map_cons, ih]
      rfl

end Piece

end EntityMapper
