import EntityMapper.Proofs.Value.Key

/-!
# Hash data of equal keys

A hash table finds a key if equal keys feed the same data to the hash function. Numbers of a value
are compared by their bits in keys, and their bits are what they feed, so not-a-number and the two
zeros do no harm. Numbers of a document are compared by value, but a document feeds its compact text,
and there a negative zero has a sign.

So equal keys feed the same data exactly if the zeros in their documents have the same signs
(`EntityKey.hashData_eq_iff`). `zeroSigns` lists these signs, and `Matched` says of two texts, or of
two sequences of hash data, that these signs are all that can tell them apart.
-/

namespace EntityMapper

/-! ## The zeros of documents -/

/-- The sign (set for negative) of a number that is a floating-point zero. -/
def JsonNumber.zeroSigns : JsonNumber → List Bool
  | .integer _ => []
  | .float x _ =>
    match x.decode with
    | (negative, .finite 0 _) => [negative]
    | _ => []

namespace Json

mutual

/-- The signs of the floating-point zeros of a document, from left to right. -/
def zeroSigns : Json → List Bool
  | .number n => n.zeroSigns
  | .array items => itemZeroSigns items
  | .object members => memberZeroSigns members
  | _ => []

/-- The signs of the zeros of the items of an array. -/
def itemZeroSigns : List Json → List Bool
  | [] => []
  | j :: rest => zeroSigns j ++ itemZeroSigns rest

/-- The signs of the zeros of the members of an object. -/
def memberZeroSigns : List (String × Json) → List Bool
  | [] => []
  | (_, j) :: rest => zeroSigns j ++ memberZeroSigns rest

end

end Json

namespace Value

mutual

/-- The signs of the zeros in the documents of a value, from left to right. -/
def zeroSigns : Value → List Bool
  | .json j => j.zeroSigns
  | .array items => itemZeroSigns items
  | _ => []

/-- The signs of the zeros in the documents of some values. -/
def itemZeroSigns : List Value → List Bool
  | [] => []
  | v :: rest => zeroSigns v ++ itemZeroSigns rest

end

end Value

/-- The signs of the zeros in the documents of a key. -/
def EntityKey.zeroSigns (k : EntityKey) : List Bool :=
  Value.itemZeroSigns k.values

/-! ## Matching -/

/-- Two sequences, each with some signs in it, that only these signs can tell apart, whatever
follows. -/
structure Matched {α : Type} (s t : List α) (signs signs' : List Bool) : Prop where
  length : signs.length = signs'.length
  cancel : ∀ u v, s ++ u = t ++ v ↔ signs = signs' ∧ u = v

namespace Matched

variable {α : Type} {s s' t t' : List α} {xs xs' ys ys' : List Bool}

theorem same (s : List α) (xs : List Bool) : Matched s s xs xs :=
  ⟨rfl, fun u v => by simp⟩

theorem append (h : Matched s t xs ys) (h' : Matched s' t' xs' ys') :
    Matched (s ++ s') (t ++ t') (xs ++ xs') (ys ++ ys') := by
  refine ⟨by simp [h.length, h'.length], fun u v => ?_⟩
  rw [List.append_assoc, List.append_assoc, h.cancel, h'.cancel, ← and_assoc]
  refine and_congr_left fun _ => ⟨fun ⟨hfirst, hrest⟩ => by rw [hfirst, hrest], fun happend => ?_⟩
  exact List.append_inj happend h.length

/-- Where nothing follows, the signs tell the sequences apart. -/
theorem eq_iff (h : Matched s t xs ys) : s = t ↔ xs = ys := by
  simpa using h.cancel [] []

/-- A text between two others. -/
theorem enclosed {s t : List Char} {xs ys : List Bool} (h : Matched s t xs ys)
    (first last : List Char) : Matched (first ++ s ++ last) (first ++ t ++ last) xs ys := by
  have henclosed := ((same first []).append h).append (same last [])
  simpa using henclosed

/-- One more text before some that are joined. -/
theorem joined_cons {s t : String} {ss ts : List String} {xs ys xs' ys' : List Bool}
    (h : Matched s.toList t.toList xs ys)
    (hrest : Matched (joined "," ss).toList (joined "," ts).toList xs' ys')
    (hlength : ss.length = ts.length) :
    Matched (joined "," (s :: ss)).toList (joined "," (t :: ts)).toList (xs ++ xs') (ys ++ ys') := by
  match ss, ts with
  | [], [] => simpa using h.append hrest
  | _ :: _, _ :: _ =>
    have hseparated := h.append (same ",".toList [])
    rw [List.append_nil, List.append_nil] at hseparated
    rw [joined_cons_cons, joined_cons_cons]
    simp only [String.toList_append]
    exact hseparated.append hrest

end Matched

/-! ## Documents -/

/-- The text of a zero is the same but for its sign. -/
theorem matched_zeroText (negative negative' : Bool) (e e' : Int) :
    Matched (Json.floatText .double (negative, .finite 0 e)).toList
      (Json.floatText .double (negative', .finite 0 e')).toList [negative] [negative'] := by
  have htext : ∀ (negative : Bool) (e : Int),
      (Json.floatText .double (negative, .finite 0 e)).toList =
        if negative then ['-', '0', '.', '0'] else ['0', '.', '0'] := by
    intro negative e
    rw [Json.floatText, FloatLayout.write, String.toList_ofList]
    cases negative <;> rfl
  rw [htext, htext]
  refine ⟨rfl, fun u v => ?_⟩
  cases negative <;> cases negative' <;> simp

theorem JsonNumber.matched_text {m n : JsonNumber} (h : m.equal n = true) :
    Matched m.text.toList n.text.toList m.zeroSigns n.zeroSigns := by
  cases m with
  | integer m =>
    cases n with
    | integer n =>
      obtain rfl : m = n := by simpa [equal] using h
      exact .same _ _
    | float y _ => cases h
  | float x hx =>
    cases n with
    | integer n => cases h
    | float y hy =>
      have hxy : Magnitude.equalSigned x.decode y.decode = true := h
      rw [text, text, zeroSigns, zeroSigns]
      generalize x.decode = d at hxy
      generalize y.decode = d' at hxy
      unfold Magnitude.equalSigned at hxy
      split at hxy
      · exact matched_zeroText _ _ _ _
      · cases hxy
      · rw [eq_of_beq hxy]
        exact .same _ _

namespace Json

theorem length_itemTexts {as bs : List Json} (h : equalItems as bs = true) :
    (itemTexts as).length = (itemTexts bs).length := by
  induction as generalizing bs with
  | nil =>
    cases bs with
    | nil => rfl
    | cons b bs => cases h
  | cons a as ih =>
    cases bs with
    | nil => cases h
    | cons b bs => exact congrArg (· + 1) (ih (Bool.and_eq_true_iff.1 h).2)

theorem length_memberTexts {as bs : List (String × Json)} (h : equalMembers as bs = true) :
    (memberTexts as).length = (memberTexts bs).length := by
  induction as generalizing bs with
  | nil =>
    cases bs with
    | nil => rfl
    | cons b bs => cases h
  | cons a as ih =>
    cases bs with
    | nil => cases h
    | cons b bs => exact congrArg (· + 1) (ih (Bool.and_eq_true_iff.1 h).2)

mutual

/-- The texts of equal documents differ in the signs of zeros only. -/
theorem matched_text {a b : Json} (h : a.equal b = true) :
    Matched a.text.toList b.text.toList a.zeroSigns b.zeroSigns := by
  cases a with
  | null =>
    cases b with
    | null => exact .same _ _
    | _ => cases h
  | bool x =>
    cases b with
    | bool y =>
      obtain rfl : x = y := by simpa [equal] using h
      exact .same _ _
    | _ => cases h
  | number m =>
    cases b with
    | number n => exact JsonNumber.matched_text h
    | _ => cases h
  | string s =>
    cases b with
    | string t =>
      obtain rfl : s = t := by simpa [equal] using h
      exact .same _ _
    | _ => cases h
  | array as =>
    cases b with
    | array bs =>
      simp only [text, zeroSigns, String.toList_append]
      exact (matched_items h).enclosed _ _
    | _ => cases h
  | object as =>
    cases b with
    | object bs =>
      simp only [text, zeroSigns, String.toList_append]
      exact (matched_members h).enclosed _ _
    | _ => cases h

theorem matched_items {as bs : List Json} (h : equalItems as bs = true) :
    Matched (joined "," (itemTexts as)).toList (joined "," (itemTexts bs)).toList
      (itemZeroSigns as) (itemZeroSigns bs) := by
  match as, bs with
  | [], [] => exact .same _ _
  | [], _ :: _ | _ :: _, [] => cases h
  | a :: as, b :: bs =>
    obtain ⟨ha, has⟩ := Bool.and_eq_true_iff.1 h
    rw [itemTexts, itemTexts, itemZeroSigns, itemZeroSigns]
    exact (matched_text ha).joined_cons (matched_items has) (length_itemTexts has)

theorem matched_members {as bs : List (String × Json)} (h : equalMembers as bs = true) :
    Matched (joined "," (memberTexts as)).toList (joined "," (memberTexts bs)).toList
      (memberZeroSigns as) (memberZeroSigns bs) := by
  match as, bs with
  | [], [] => exact .same _ _
  | [], _ :: _ | _ :: _, [] => cases h
  | (k, a) :: as, (l, b) :: bs =>
    obtain ⟨hfirst, has⟩ := Bool.and_eq_true_iff.1 h
    obtain ⟨hname, ha⟩ := Bool.and_eq_true_iff.1 hfirst
    obtain rfl : k = l := eq_of_beq hname
    have hmember : Matched (quote k ++ ":" ++ a.text).toList (quote k ++ ":" ++ b.text).toList
        a.zeroSigns b.zeroSigns := by
      have htext := (Matched.same (quote k ++ ":").toList []).append (matched_text ha)
      rwa [← String.toList_append, ← String.toList_append] at htext
    rw [memberTexts, memberTexts, memberZeroSigns, memberZeroSigns]
    exact hmember.joined_cons (matched_members has) (length_memberTexts has)

end

/-- The texts of equal documents are the same exactly if their zeros have the same signs. -/
theorem text_eq_iff {a b : Json} (h : a.equal b = true) :
    a.text = b.text ↔ a.zeroSigns = b.zeroSigns := by
  rw [← (matched_text h).eq_iff, String.toList_inj]

end Json

/-! ## Values and keys -/

namespace Value

theorem length_of_keyEqualItems {vs ws : List Value} (h : keyEqualItems vs ws = true) :
    vs.length = ws.length := by
  induction vs generalizing ws with
  | nil =>
    cases ws with
    | nil => rfl
    | cons w ws => cases h
  | cons v vs ih =>
    cases ws with
    | nil => cases h
    | cons w ws => exact congrArg (· + 1) (ih (Bool.and_eq_true_iff.1 h).2)

/-- Equal documents feed data that differ in the signs of zeros only. -/
theorem matched_json {a b : Json} (h : a.equal b = true) :
    Matched (json a).hashData (json b).hashData a.zeroSigns b.zeroSigns := by
  refine ⟨(Json.matched_text h).length, fun u v => ?_⟩
  rw [hashData, hashData, ← Json.text_eq_iff h]
  simp

mutual

/-- Key-equal values feed data that differ in the signs of zeros only. -/
theorem matched_hashData {v w : Value} (h : v.keyEqual w = true) :
    Matched v.hashData w.hashData v.zeroSigns w.zeroSigns := by
  cases v with
  | json a =>
    cases w with
    | json b => exact matched_json h
    | _ => cases h
  | array vs =>
    cases w with
    | array ws =>
      have hlength : vs.length = ws.length := length_of_keyEqualItems h
      rw [hashData, hashData, hlength, zeroSigns, zeroSigns]
      exact (Matched.same [.kind 16, .length ws.length] []).append (matched_hashItems h)
    | _ => cases h
  | _ =>
    obtain rfl := eq_of_keyEqual h nofun nofun
    exact .same _ _

theorem matched_hashItems {vs ws : List Value} (h : keyEqualItems vs ws = true) :
    Matched (hashItems vs) (hashItems ws) (itemZeroSigns vs) (itemZeroSigns ws) := by
  match vs, ws with
  | [], [] => exact .same _ _
  | [], _ :: _ | _ :: _, [] => cases h
  | v :: vs, w :: ws =>
    obtain ⟨hv, hvs⟩ := Bool.and_eq_true_iff.1 h
    rw [hashItems, hashItems, itemZeroSigns, itemZeroSigns]
    exact (matched_hashData hv).append (matched_hashItems hvs)

end

end Value

namespace EntityKey

/-- Equal keys feed data that differ in the signs of zeros only. -/
theorem matched_hashData {k l : EntityKey} (h : k.equal l = true) :
    Matched k.hashData l.hashData k.zeroSigns l.zeroSigns := by
  cases k with
  | null =>
    cases l with
    | null => exact .same _ _
    | _ => cases h
  | simple v =>
    cases l with
    | simple w =>
      have hvalue := (Value.matched_hashData h).append (.same [] [])
      rw [List.append_nil, List.append_nil] at hvalue
      exact (Matched.same [.kind 1] []).append hvalue
    | _ => cases h
  | composite vs =>
    cases l with
    | composite ws =>
      have hlength : vs.length = ws.length := Value.length_of_keyEqualItems h
      rw [hashData, hashData, hlength]
      exact (Matched.same [.kind 2, .length ws.length] []).append (Value.matched_hashItems h)
    | _ => cases h

/-- **Equal keys feed the same data to a hash function** exactly if the zeros in their documents have
the same signs, and so do key-equal values. -/
theorem hashData_eq_iff (k l : EntityKey) (v w : Value) :
    (k.equal l = true → (k.hashData = l.hashData ↔ k.zeroSigns = l.zeroSigns)) ∧
    (v.keyEqual w = true → (v.hashData = w.hashData ↔ v.zeroSigns = w.zeroSigns)) :=
  ⟨fun h => (matched_hashData h).eq_iff, fun h => (Value.matched_hashData h).eq_iff⟩

/-- An array of one document, which holds a zero of the given sign. -/
def zeroItems (negative : Bool) : Value :=
  .array [.json (.array [.null, .number
    (if negative then .float ⟨0x8000000000000000⟩ (by decide) else .float ⟨0⟩ (by decide))])]

/-- A key of not-a-number and such an array. -/
def signedZero (negative : Bool) : EntityKey :=
  .ofValues [.double ⟨0x7FF8000000000000⟩, zeroItems negative]

theorem hashData_eq_iff_signedZero :
    ((signedZero false).equal (signedZero true) = true ∧
      (signedZero false).hashData ≠ (signedZero true).hashData) ∧
    (zeroItems false).keyEqual (zeroItems true) = true ∧
      (zeroItems false).hashData ≠ (zeroItems true).hashData := by
  have hkeys : (signedZero false).equal (signedZero true) = true := by decide
  have hvalues : (zeroItems false).keyEqual (zeroItems true) = true := by decide
  obtain ⟨hkey, hvalue⟩ :=
    hashData_eq_iff (signedZero false) (signedZero true) (zeroItems false) (zeroItems true)
  refine ⟨⟨hkeys, fun hsame => ?_⟩, hvalues, fun hsame => ?_⟩
  · exact absurd ((hkey hkeys).1 hsame) (by decide)
  · exact absurd ((hvalue hvalues).1 hsame) (by decide)

end EntityKey

end EntityMapper
