import EntityMapper.Error
import EntityMapper.Text.DecimalDigit
import EntityMapper.Text.Utf8

/-!
# Migration identifiers

The identifier of a migration is a timestamp of fifteen digits, an underscore and a name, as in
`201410241421441_Initial`. Digits of every script are admitted, and the name is one line.

The parts are cut by bytes: the timestamp is the first fifteen bytes and the name starts after the
sixteenth. For ASCII digits that is where the underscore stands; a cut may also fall inside a digit
of another script, and then there is no such part.
-/

namespace EntityMapper

/-- Whether a text is fifteen digits, an underscore and a name without line ends. -/
def isMigrationId (cs : List Char) : Bool :=
  (cs.take 15).length == 15 && (cs.take 15).all isDecimalDigit &&
    match cs.drop 15 with
    | '_' :: name => !name.isEmpty && name.all (· != '\n')
    | _ => false

/-- The identifier of a migration. -/
structure MigrationId where
  text : String
  valid : isMigrationId text.toList = true

namespace MigrationId

/-- Checks the form of an identifier. -/
def ofString (s : String) : Result MigrationId :=
  if s.isEmpty then .error (.configuration .emptyMigrationId)
  else if h : isMigrationId s.toList = true then .ok ⟨s, h⟩
  else .error (.configuration (.migrationId s))

/-- The first fifteen bytes, unless they end inside a character. -/
def timestamp? (id : MigrationId) : Option String :=
  (Utf8.take? 15 id.text.toList).map String.ofList

/-- What follows the first sixteen bytes, unless they end inside a character. -/
def name? (id : MigrationId) : Option String :=
  (Utf8.drop? 16 id.text.toList).map String.ofList

/-- The texts of identifiers in order, each once. -/
def sortedTexts (ids : List MigrationId) : List String :=
  let sorted := (ids.map (·.text)).mergeSort fun a b => decide (a ≤ b)
  sorted.eraseReps

end MigrationId

end EntityMapper
