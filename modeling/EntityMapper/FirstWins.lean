/-!
# First entries for keys

`FirstWins` is a collection of entries for keys that are never replaced or removed: whoever adds
first for a key wins, and every later addition finds that entry. Entries keep their order.
-/

namespace EntityMapper

/-- Entries for keys, the first for each key for good. -/
structure FirstWins (α β : Type) where
  entries : List (α × β)
  deriving Repr

namespace FirstWins

variable {α β : Type} [DecidableEq α]

/-- No entries. -/
def empty : FirstWins α β := ⟨[]⟩

/-- The entry for a key. -/
def find? (c : FirstWins α β) (key : α) : Option β :=
  c.entries.lookup key

/-- The number of keys with an entry. -/
def size (c : FirstWins α β) : Nat :=
  c.entries.length

/-- The entries with one more, unless its key has one. -/
def add (c : FirstWins α β) (key : α) (value : β) : FirstWins α β :=
  match c.find? key with
  | some _ => c
  | none => ⟨c.entries ++ [(key, value)]⟩

/-- The entry for a key, built and added if there is none. -/
def findOrAdd (c : FirstWins α β) (key : α) (build : α → β) : β × FirstWins α β :=
  match c.find? key with
  | some value => (value, c)
  | none => (build key, c.add key (build key))

/-- An added entry is found where there was none. -/
theorem find?_add (c : FirstWins α β) (k key : α) (v : β) :
    (c.add k v).find? key = (c.find? key).or (if key = k then some v else none) := by
  unfold add
  split
  · rename_i w hw
    split
    · rename_i hkey
      rw [hkey, hw]
      rfl
    · rw [Option.or_none]
  · rw [find?, List.lookup_append, ← find?]
    congr 1
    by_cases hkey : key = k
    · simp [hkey]
    · rw [if_neg hkey, List.lookup_cons, beq_eq_false_iff_ne.2 hkey]
      rfl

/-- The entries with some more, one after the other, each unless its key has one. -/
def addAll (c : FirstWins α β) (entries : List (α × β)) : FirstWins α β :=
  entries.foldl (fun c entry => c.add entry.1 entry.2) c

@[simp] theorem addAll_nil (c : FirstWins α β) : c.addAll [] = c := rfl

@[simp] theorem addAll_cons (c : FirstWins α β) (entry : α × β) (entries : List (α × β)) :
    c.addAll (entry :: entries) = (c.add entry.1 entry.2).addAll entries := rfl

theorem addAll_append (c : FirstWins α β) (entries more : List (α × β)) :
    c.addAll (entries ++ more) = (c.addAll entries).addAll more :=
  List.foldl_append

/-- The value of the first entry for a key. -/
def first? (entries : List (α × β)) (key : α) : Option β :=
  (entries.find? fun entry => entry.1 = key).map Prod.snd

/-- Of some added entries, the first for a key is found where there was none. -/
theorem find?_addAll (c : FirstWins α β) (entries : List (α × β)) (key : α) :
    (c.addAll entries).find? key = (c.find? key).or (first? entries key) := by
  induction entries generalizing c with
  | nil => exact (Option.or_none ..).symm
  | cons entry entries ih =>
    rw [addAll_cons, ih, find?_add, Option.or_assoc, first?, first?, List.find?_cons]
    by_cases hkey : entry.1 = key
    · rw [if_pos hkey.symm, decide_eq_true hkey, Option.some_or]
      rfl
    · rw [if_neg (Ne.symm hkey), decide_eq_false hkey, Option.none_or]

theorem first?_isSome_iff {entries : List (α × β)} {key : α} :
    (first? entries key).isSome = true ↔ ∃ entry ∈ entries, entry.1 = key := by
  simp [first?]

theorem mem_of_first? {entries : List (α × β)} {key : α} {v : β}
    (h : first? entries key = some v) : (key, v) ∈ entries := by
  obtain ⟨entry, hfound, rfl⟩ := Option.map_eq_some_iff.1 h
  have hkey : entry.1 = key := by simpa using List.find?_some hfound
  rw [← hkey]
  exact List.mem_of_find?_eq_some hfound

/-- Entries for a key that agree are as good as one. -/
theorem first?_eq_some {entries : List (α × β)} {key : α} {v : β} (hmem : (key, v) ∈ entries)
    (hsame : ∀ w, (key, w) ∈ entries → w = v) : first? entries key = some v := by
  obtain ⟨w, hw⟩ := Option.isSome_iff_exists.1 (first?_isSome_iff.2 ⟨_, hmem, rfl⟩)
  rw [hw, hsame w (mem_of_first? hw)]

theorem first?_eq_none {entries : List (α × β)} {key : α} (h : ∀ entry ∈ entries, entry.1 ≠ key) :
    first? entries key = none := by
  rw [first?, List.find?_eq_none.2 fun entry hentry => by simpa using h entry hentry]
  rfl

end FirstWins

end EntityMapper
