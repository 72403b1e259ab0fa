import EntityMapper.Proofs.Tracking.Committing
import EntityMapper.Proofs.Tracking.Refusal

/-!
# Where writes go

A write to a property goes to the first sidecar that takes writes to it (`Scope.Diverted`), and to the
primary value if there is none (`Scope.Stored`). `Action.set_routes` says for every write that goes
through which of the two it was, what changed, and that nothing else did.

Where a write goes and what reads see of it are decided apart, by different flags of the sidecars. A
sidecar that reads see through hides what was written behind it, and a written value stays hidden in a
sidecar that they do not see through.
-/

namespace EntityMapper

open Stepwise

/-- An entry as its entity type declares it, with a flag for each property. Its sidecars have different
names, and the one for baseline values, if it is there, is as the library makes it. -/
structure Entry.Regular (e : Entry) : Prop where
  declared : e.Declared
  builtIn : e.BuiltIn
  flags : e.modified.length = e.type.properties.length
  names : (e.sidecars.map (·.name)).Nodup

namespace Entry

variable {e : Entry} {s : Sidecar} {sidecars : List Sidecar}

/-- Attaching keeps the names of sidecars different. -/
theorem nodup_attachTo (h : (sidecars.map (·.name)).Nodup) :
    ((attachTo s sidecars).map (·.name)).Nodup := by
  by_cases hmem : s.name ∈ sidecars.map (·.name)
  · rwa [names_attachTo_of_mem hmem]
  · have hnew : ∀ t ∈ sidecars, t.name ≠ s.name := fun t ht hname =>
      hmem (hname ▸ List.mem_map_of_mem ht)
    rw [attachTo_of_notMem hnew]
    exact nodup_keys_append h hnew

/-- Any sidecar may be attached to a regular entry, but for another one for baseline values. -/
theorem Regular.attach (h : e.Regular) (hname : s.name ≠ Sidecar.baselineName) :
    (e.attach s).Regular where
  declared := h.declared.of_make rfl
  builtIn := h.builtIn.of_members rfl fun t ht => by
    rcases mem_attachTo ht with rfl | ht
    · exact .inr (.inl hname)
    · exact .inl ht
  flags := h.flags
  names := nodup_attachTo h.names

end Entry

/-! ## The two places -/

/-- A value for a property is another one than the entry has, and an unchanged or modified entry is to
flag it. -/
def Entry.Marks (e : Entry) (p : Property) (w : Value) : Prop :=
  (∃ c, e.primaryValue p = .ok c ∧ c.keyEqual w = false) ∧
    (e.state = .unchanged ∨ e.state = .modified)

namespace Scope

/-- A write of `w` was taken by the sidecar `t`, the first one that takes writes to `p`, and nothing but
what `t` holds for `p` is changed. -/
structure Diverted (s s' : Scope) (p : Property) (w : Value) (before : List Sidecar) (t : Sidecar)
    (after : List Sidecar) : Prop where
  sidecars : s.entry.sidecars = before ++ t :: after
  first : ∀ u ∈ before, (u.transparentWrite && u.covers p) = false
  takes : (t.transparentWrite && t.covers p) = true
  changes : s' = { s with entry := { s.entry with sidecars := before ++ t.holding p w :: after } }
  held : (t.holding p w).get? p = some w
  kept : ∀ q, q.index ≠ p.index → (t.holding p w).get? q = t.get? q
  seen : t.transparentRead = true → (∀ u ∈ before, u.reads p = none) → s'.entry.get p = .ok w
  unseen : (t.transparentRead = false ∨ ∃ u ∈ before, u.reads p ≠ none) →
    s'.entry.get p = s.entry.get p

/-- A write of `w` went to the primary value of `p`. -/
structure Stored (s s' : Scope) (p : Property) (w : Value) : Prop where
  direct : ∀ t ∈ s.entry.sidecars, (t.transparentWrite && t.covers p) = false
  sidecars : s'.entry.sidecars.filter (·.name != Sidecar.baselineName) =
    s.entry.sidecars.filter (·.name != Sidecar.baselineName)
  primary : ∃ x, s'.entry.primaryValue p = .ok x ∧ x.keyEqual w = true
  kept : ∀ q, s.entry.type.owns q = true → q.same p = false →
    s'.entry.primaryValue q = s.entry.primaryValue q
  marked : s.entry.Marks p w → s'.entry.state = .modified ∧
    s'.entry.modified = s.entry.modified.set p.index true ∧ s'.entry.isModified p = .ok true
  unmarked : ¬ s.entry.Marks p w →
    s'.entry.state = s.entry.state ∧ s'.entry.modified = s.entry.modified
  seen : (∀ u ∈ s.entry.sidecars, u.reads p = none) →
    ∃ x, s'.entry.get p = .ok x ∧ x.keyEqual w = true
  unseen : (∃ u ∈ s.entry.sidecars, u.reads p ≠ none) → s'.entry.get p = s.entry.get p

end Scope

/-! ## Reads -/

/-- Different properties of an entity type have different places. -/
theorem EntityType.index_ne_of_owns {t : EntityType} {p q : Property} (hq : t.owns q = true)
    (hp : t.owns p = true) (hother : q.same p = false) : q.index ≠ p.index := by
  intro hindex
  rw [same_of_owns hq hp hindex] at hother
  cases hother

namespace Entry

variable {e e' : Entry} {p q : Property} {w c : Value} {t : Sidecar} {before after : List Sidecar}

/-- What reads give is a matter of the sidecars and of the primary value. -/
theorem get_eq_of (htype : e'.type = e.type) (h : e.type.owns q = true →
    e'.overlay? q = e.overlay? q ∧ (e.overlay? q = none → e'.primaryValue q = e.primaryValue q)) :
    e'.get q = e.get q := by
  cases howns : e.type.owns q with
  | false => rw [(reads_of_not_owns howns).1, (reads_of_not_owns (htype ▸ howns)).1, htype]
  | true =>
    obtain ⟨hoverlay, hprimary⟩ := h howns
    rw [get_of_owns howns, get_of_owns (htype ▸ howns), hoverlay]
    cases hread : e.overlay? q with
    | some v => rfl
    | none => exact hprimary hread

/-- No sidecar takes writes to a property, or one is the first that does. -/
theorem takes_cases (e : Entry) (p : Property) :
    (∀ t ∈ e.sidecars, (t.transparentWrite && t.covers p) = false) ∨
    ∃ before t after, e.sidecars = before ++ t :: after ∧
      (∀ u ∈ before, (u.transparentWrite && u.covers p) = false) ∧
      (t.transparentWrite && t.covers p) = true := by
  cases hfind : e.sidecars.find? fun t => t.transparentWrite && t.covers p with
  | none => exact .inl fun t ht => by simpa using List.find?_eq_none.1 hfind t ht
  | some t =>
    obtain ⟨htakes, before, after, hsidecars, hfirst⟩ := List.find?_eq_some_iff_append.1 hfind
    exact .inr ⟨before, t, after, hsidecars,
      fun u hu => by simpa only [Bool.not_eq_true'] using hfirst u hu, htakes⟩

theorem overlay?_eq_none_iff :
    e.overlay? q = none ↔ ∀ u ∈ e.sidecars, u.reads q = none := by
  rw [overlay?_eq, List.findSome?_eq_none_iff]

/-- A sidecar in the place of another one makes no difference to reads that see the same in both, or
that see something before. -/
theorem overlay?_replaced {t' : Sidecar} (h : e.sidecars = before ++ t :: after)
    (hreads : t'.reads q = t.reads q ∨ ∃ u ∈ before, u.reads q ≠ none) :
    ({ e with sidecars := before ++ t' :: after } : Entry).overlay? q = e.overlay? q := by
  rw [overlay?_of_sidecars h, overlay?_of_sidecars (e := { e with sidecars := _ }) rfl]
  rcases hreads with hsame | ⟨u, hu, hreads⟩
  · rw [hsame]
  · cases hfirst : before.findSome? (·.reads q) with
    | some v => rfl
    | none => exact absurd (List.findSome?_eq_none_iff.1 hfirst u hu) hreads

/-- It is seen where it shows a value and none before it does. -/
theorem get_replaced {v : Value} (howns : e.type.owns p = true) (hread : t.reads p = some v)
    (hbefore : ∀ u ∈ before, u.reads p = none) :
    ({ e with sidecars := before ++ t :: after } : Entry).get p = .ok v := by
  have howns' : ({ e with sidecars := before ++ t :: after } : Entry).type.owns p = true := howns
  rw [get_of_owns howns', overlay?_of_sidecars (e := { e with sidecars := _ }) rfl,
    List.findSome?_eq_none_iff.2 hbefore, hread]
  rfl

/-! ## Capturing -/

theorem filter_attachTo {sidecars : List Sidecar} {name : String} (h : t.name = name) :
    (attachTo t sidecars).filter (·.name != name) = sidecars.filter (·.name != name) := by
  subst h
  induction sidecars with
  | nil => simp [attachTo]
  | cons u rest ih =>
    unfold attachTo
    split
    · next hu => simp [hu]
    · rw [List.filter_cons, List.filter_cons, ih]

/-- Capturing changes no sidecar but the one for baseline values. -/
theorem filter_capturing (e : Entry) (p : Property) (c : Value) :
    (e.capturing p c).sidecars.filter (·.name != Sidecar.baselineName) =
      e.sidecars.filter (·.name != Sidecar.baselineName) := by
  unfold capturing
  split
  · rfl
  · exact filter_attachTo e.name_baselineSidecar

theorem BuiltIn.not_captureHides (h : e.BuiltIn) : ¬ e.CaptureHides p := by
  rintro ⟨before, b, after, hsidecars, hb, -, hread, -⟩
  obtain ⟨values, rfl⟩ := h b (by rw [hsidecars]; simp) hb
  cases hread

theorem BuiltIn.covers_baselineSidecar (h : e.BuiltIn) (hp : p ∈ e.type.properties) :
    e.baselineSidecar.covers p = true := by
  obtain ⟨values, hvalues, -⟩ := h.exists_values
  rw [baselineSidecar, hvalues]
  exact Sidecar.covers_baselineWith hp

end Entry

/-! ## Writes -/

namespace Action

variable {s s' : Scope} {p q : Property} {v w c : Value} {t : Sidecar} {before after : List Sidecar}

/-- A write that goes through is one to a property of the entry, with a value of its type. -/
theorem owns_and_coerces_of_set (h : Stepwise.perform (set p v) s = (.ok (), s')) :
    s.entry.type.owns p = true ∧ ∃ w, p.coerce v = .ok w := by
  obtain ⟨⟨⟩, s₁, h₁, h⟩ := perform_bind_eq_ok_iff.1 h
  obtain ⟨w, s₂, h₂, -⟩ := perform_bind_eq_ok_iff.1 h
  exact ⟨Entry.owns_of_requireOwned (congrArg Prod.fst h₁), w, congrArg Prod.fst h₂⟩

section Diverted

variable (howned : s.entry.type.owns p = true) (hw : p.coerce v = .ok w)
  (hnames : (s.entry.sidecars.map (·.name)).Nodup)
  (hsidecars : s.entry.sidecars = before ++ t :: after)
  (hfirst : ∀ u ∈ before, (u.transparentWrite && u.covers p) = false)
  (htakes : (t.transparentWrite && t.covers p) = true)
include howned hw hnames hsidecars hfirst htakes

/-- A write to the first sidecar that takes it. -/
theorem perform_set_diverted : Stepwise.perform (set p v) s = (.ok (),
    { s with entry := { s.entry with sidecars := before ++ t.holding p w :: after } }) := by
  have hfind : (s.entry.sidecars.find? fun u => u.transparentWrite && u.covers p) = some t :=
    List.find?_eq_some_iff_append.2 ⟨htakes, before, after, hsidecars, fun u hu => by
      rw [hfirst u hu, Bool.not_false]⟩
  have hset : t.set p w = .ok (t.holding p w) := if_pos (Bool.and_eq_true_iff.1 htakes).2
  have hnot : ∀ u ∈ before, u.name ≠ (t.holding p w).name := by
    rw [hsidecars, List.map_append, List.nodup_append] at hnames
    exact fun u hu => hnames.2.2 u.name (List.mem_map_of_mem hu) t.name (by simp)
  rw [perform_set_of_coerced (if_pos howned) hw, hfind, Option.elim_some, perform_update, hset]
  change (Except.ok (), _) = _
  rw [Entry.attach, hsidecars, Entry.attachTo_append (b := t) hnot rfl]

theorem diverted_of_perform (h : Stepwise.perform (set p v) s = (.ok (), s')) :
    s.Diverted s' p w before t after ∧
      ∀ q, q.same p = false → s'.entry.get q = s.entry.get q := by
  rw [perform_set_diverted howned hw hnames hsidecars hfirst htakes] at h
  cases h
  have hcovers := (Bool.and_eq_true_iff.1 htakes).2
  refine ⟨⟨hsidecars, hfirst, htakes, rfl, Sidecar.get?_holding hcovers,
    fun q => Sidecar.get?_holding_of_ne, fun hread hbefore => ?seen, fun hunseen => ?unseen⟩,
    fun q hq => ?other⟩
  case seen =>
    have hheld : (t.holding p w).reads p = some w :=
      (if_pos hread).trans (Sidecar.get?_holding hcovers)
    exact Entry.get_replaced howned hheld hbefore
  case unseen =>
    refine Entry.get_eq_of rfl fun _ => ⟨Entry.overlay?_replaced hsidecars ?_, fun _ => rfl⟩
    refine hunseen.imp_left fun hread => ?_
    have hread' : (t.holding p w).transparentRead = false := hread
    rw [Sidecar.reads, Sidecar.reads, hread, hread']
    rfl
  case other =>
    refine Entry.get_eq_of rfl fun howns => ⟨Entry.overlay?_replaced hsidecars (.inl ?_), fun _ => rfl⟩
    have hne := EntityType.index_ne_of_owns howns howned hq
    rw [Sidecar.reads, Sidecar.reads, Sidecar.get?_holding_of_ne hne]
    rfl

end Diverted

/-- A write of another value to the primary value of a regular entry: the one before is captured, the
storage takes the value, and its property is flagged if the entry is unchanged or modified. -/
theorem exists_write (hr : s.entry.Regular) (hp : p ∈ s.entry.type.properties) (hw : p.Takes w)
    (hcurrent : s.entry.primaryValue p = .ok c) (hchanges : c.keyEqual w = false) :
    ∃ e s' state modified, s.entry.putPrimary p w = .ok e ∧
      Stepwise.perform (write p w) s = (.ok (), s') ∧
      s'.entry = { e with
        sidecars := (s.entry.capturing p c).sidecars
        snapshot := (s.entry.afterRefusal p w c).snapshot
        state, modified } ∧
      ((s.entry.state = .unchanged ∨ s.entry.state = .modified) →
        state = .modified ∧ modified = s.entry.modified.set p.index true) ∧
      (¬ (s.entry.state = .unchanged ∨ s.entry.state = .modified) →
        state = s.entry.state ∧ modified = s.entry.modified) := by
  obtain ⟨e, hput⟩ := hr.declared.exists_putPrimary hp hw
  have hrevalued := Entry.putPrimary_revalued hput
  have howned : e.type.owns p = true :=
    hrevalued.type ▸ hr.declared.valid.placed.owns_of_mem hp
  have hrun := perform_write_of_taken hcurrent hchanges (hr.builtIn.covers_baselineSidecar hp) hput
  rw [perform_flagWritten howned] at hrun
  by_cases hstate : s.entry.state = .unchanged ∨ s.entry.state = .modified
  · have hstate' : e.state = .unchanged ∨ e.state = .modified := hrevalued.state ▸ hstate
    rw [if_pos (by simpa using hstate')] at hrun
    exact ⟨e, _, _, _, hput, hrun, Scope.entry_flag_on hstate',
      fun _ => ⟨rfl, congrArg (·.set p.index true) hrevalued.modified⟩, fun h => absurd hstate h⟩
  · have hstate' : ¬ (e.state = .unchanged ∨ e.state = .modified) := hrevalued.state ▸ hstate
    rw [if_neg (by simpa using hstate')] at hrun
    exact ⟨e, _, e.state, e.modified, hput, hrun, rfl, fun h => absurd h hstate,
      fun _ => ⟨hrevalued.state, hrevalued.modified⟩⟩

/-- A write of a value that is there already. -/
theorem stored_self (hdirect : ∀ t ∈ s.entry.sidecars, (t.transparentWrite && t.covers p) = false)
    (howned : s.entry.type.owns p = true) (hcurrent : s.entry.primaryValue p = .ok c)
    (hequal : c.keyEqual w = true) : s.Stored s p w where
  direct := hdirect
  sidecars := rfl
  primary := ⟨c, hcurrent, hequal⟩
  kept _ _ _ := rfl
  marked := fun ⟨⟨c', hc, hchanges⟩, _⟩ => by
    rw [hcurrent] at hc
    cases hc
    cases hequal.symm.trans hchanges
  unmarked _ := ⟨rfl, rfl⟩
  seen hreads := ⟨c, by
    rw [Entry.get_of_overlay?_eq_none howned (Entry.overlay?_eq_none_iff.2 hreads), hcurrent], hequal⟩
  unseen _ := rfl

/-- A write of another value. -/
theorem stored_of_write (hr : s.entry.Regular) (hp : p ∈ s.entry.type.properties) (hw : p.Takes w)
    (hdirect : ∀ t ∈ s.entry.sidecars, (t.transparentWrite && t.covers p) = false)
    (hcurrent : s.entry.primaryValue p = .ok c) (hchanges : c.keyEqual w = false)
    (h : Stepwise.perform (write p w) s = (.ok (), s')) :
    s.Stored s' p w ∧ ∀ q, q.same p = false → s'.entry.get q = s.entry.get q := by
  obtain ⟨e, s₁, state, modified, hput, hrun, hentry, hmarked, hunmarked⟩ :=
    exists_write hr hp hw hcurrent hchanges
  obtain rfl : s₁ = s' := congrArg Prod.snd (hrun.symm.trans h)
  have hvalid := hr.declared.valid
  have howned := hvalid.placed.owns_of_mem hp
  have htype : s₁.entry.type = s.entry.type := by
    rw [hentry]
    exact (Entry.putPrimary_revalued hput).type
  have hvalues : ∀ q, s₁.entry.primaryValue q = e.primaryValue q := fun q => by
    rw [hentry]
    rfl
  have hprimary : s₁.entry.primaryValue p = .ok w :=
    (hvalues p).trans (hr.declared.primaryValue_of_putPrimary hp hw hput)
  have hkept : ∀ q, s.entry.type.owns q = true → q.same p = false →
      s₁.entry.primaryValue q = s.entry.primaryValue q := by
    intro q hq hother
    have hne := (EntityType.index_ne_of_owns hq howned hother).symm
    rw [hvalues]
    exact Entry.primaryValue_of_putPrimary_apart
      (hr.declared.apart.of_owns hvalid.placed howned hq hne) hne hput
  have hoverlay : ∀ q, s.entry.type.owns q = true → s₁.entry.overlay? q = s.entry.overlay? q := by
    intro q hq
    rw [hentry]
    -- reads do not see through the sidecar that the value before is captured in
    exact Entry.overlay?_capturing (fun _ => hr.builtIn.not_captureHides)
      (EntityType.same_of_owns hq howned)
  refine ⟨{
    direct := hdirect
    sidecars := by rw [hentry]; exact s.entry.filter_capturing p c
    primary := ⟨w, hprimary, w.keyEqual_self⟩
    kept := hkept
    marked := fun hmarks => ?marked
    unmarked := fun hmarks => ?unmarked
    seen := fun hreads => ?seen
    unseen := fun ⟨u, hu, hreads⟩ => ?unseen }, fun q hq => ?other⟩
  case marked =>
    obtain ⟨hstate, hflags⟩ := hmarked hmarks.2
    have hlt : p.index < s.entry.modified.length := hr.flags ▸ hvalid.placed.index_lt hp
    have howned' : s₁.entry.requireOwned p = .ok () := if_pos (htype ▸ howned)
    have hentry' : s₁.entry.modified = s.entry.modified.set p.index true := by rw [hentry, hflags]
    refine ⟨by rw [hentry, hstate], hentry', ?_⟩
    rw [Entry.isModified, howned', hentry', List.getElem?_set_self hlt]
    rfl
  case unmarked =>
    have hstate : ¬ (s.entry.state = .unchanged ∨ s.entry.state = .modified) :=
      fun hstate => hmarks ⟨⟨c, hcurrent, hchanges⟩, hstate⟩
    rw [hentry]
    exact hunmarked hstate
  case seen =>
    have hnone := (hoverlay p howned).trans (Entry.overlay?_eq_none_iff.2 hreads)
    exact ⟨w, (Entry.get_of_overlay?_eq_none (htype ▸ howned) hnone).trans hprimary, w.keyEqual_self⟩
  case unseen =>
    exact Entry.get_eq_of htype fun _ => ⟨hoverlay p howned, fun hnone =>
      absurd (Entry.overlay?_eq_none_iff.1 hnone u hu) hreads⟩
  case other =>
    exact Entry.get_eq_of htype fun howns => ⟨hoverlay q howns, fun _ => hkept q howns hq⟩

/-- Writes of coerced values to own properties of a regular entry go through. -/
theorem exists_set (hr : s.entry.Regular) (hp : p ∈ s.entry.type.properties)
    (hw : p.coerce v = .ok w) : ∃ s', Stepwise.perform (set p v) s = (.ok (), s') := by
  have howns := hr.declared.valid.placed.owns_of_mem hp
  rcases s.entry.takes_cases p with hdirect | ⟨before, t, after, hsidecars, hfirst, htakes⟩
  · rw [perform_set_direct howns hw hdirect]
    obtain ⟨c, hcurrent⟩ := hr.declared.valid.primaryValue_ok p
    cases hchanges : c.keyEqual w with
    | true => exact ⟨s, perform_write_of_equal hcurrent hchanges⟩
    | false =>
      obtain ⟨_, s', _, _, -, hrun, -⟩ :=
        exists_write hr hp (Property.takes_of_coerce hw) hcurrent hchanges
      exact ⟨s', hrun⟩
  · exact ⟨_, perform_set_diverted howns hw hr.names hsidecars hfirst htakes⟩

/-- A write that goes through is taken by the first sidecar that takes it, or goes to the primary
value. -/
theorem routed_of_set (hr : s.entry.Regular) (hp : p ∈ s.entry.type.properties)
    (hw : p.coerce v = .ok w) (h : Stepwise.perform (set p v) s = (.ok (), s')) :
    ((∃ before t after, s.Diverted s' p w before t after) ∨ s.Stored s' p w) ∧
      ∀ q, q.same p = false → s'.entry.get q = s.entry.get q := by
  have howns := hr.declared.valid.placed.owns_of_mem hp
  rcases s.entry.takes_cases p with hdirect | ⟨before, t, after, hsidecars, hfirst, htakes⟩
  · rw [perform_set_direct howns hw hdirect] at h
    obtain ⟨c, hcurrent⟩ := hr.declared.valid.primaryValue_ok p
    cases hchanges : c.keyEqual w with
    | true =>
      rw [perform_write_of_equal hcurrent hchanges] at h
      cases h
      exact ⟨.inr (stored_self hdirect howns hcurrent hchanges), fun _ _ => rfl⟩
    | false =>
      obtain ⟨hstored, hother⟩ :=
        stored_of_write hr hp (Property.takes_of_coerce hw) hdirect hcurrent hchanges h
      exact ⟨.inr hstored, hother⟩
  · obtain ⟨hdiverted, hother⟩ :=
      diverted_of_perform howns hw hr.names hsidecars hfirst htakes h
    exact ⟨.inl ⟨before, t, after, hdiverted⟩, hother⟩

/-- **Where a write goes**: to the first sidecar that takes it and nowhere else, or to the primary
value, with the flag and the state of the entry in step. Either way reads of all other properties
give what they gave. Writes go through exactly to own properties, with values of their types. -/
theorem set_routes (hr : s.entry.Regular) (hp : s.entry.type.Knows p) :
    ((∃ s', Stepwise.perform (set p v) s = (.ok (), s')) ↔
      s.entry.type.owns p = true ∧ ∃ w, p.coerce v = .ok w) ∧
    ∀ s', Stepwise.perform (set p v) s = (.ok (), s') → ∃ w, p.coerce v = .ok w ∧
      ((∃ before t after, s.Diverted s' p w before t after) ∨ s.Stored s' p w) ∧
      ∀ q, q.same p = false → s'.entry.get q = s.entry.get q := by
  refine ⟨⟨fun ⟨s', h⟩ => owns_and_coerces_of_set h, fun ⟨howns, w, hw⟩ => ?_⟩, fun s' h => ?_⟩
  · exact exists_set hr (hp howns) hw
  · obtain ⟨howns, w, hw⟩ := owns_and_coerces_of_set h
    exact ⟨w, hw, routed_of_set hr (hp howns) hw h⟩

end Action

/-! ## An example -/

namespace Badges

/-- A sidecar that takes new labels, and does not show them. -/
def tray : Sidecar :=
  { Sidecar.plain "Tray" [label] with transparentWrite := true }

/-- An unchanged badge with a sidecar that shows a label. -/
def shown : Entry :=
  { badge "x" "y" with state := .unchanged, sidecars := [] }.attach (overlay "A" "x")

theorem shown_regular : shown.Regular := by
  refine Entry.Regular.attach ⟨(declared "x" "y").of_make rfl, fun t ht => ?_, rfl, .nil⟩ ?_
  · cases ht
  · decide

end Badges

namespace Action

theorem set_routes_badges :
    (∃ s', Stepwise.perform (set Badges.label (.text "z"))
        ⟨Badges.shown.attach Badges.tray, Badges.session⟩ = (.ok (), s') ∧
      s'.entry.state = .unchanged ∧
      ∃ t ∈ s'.entry.sidecars, t.get? Badges.label = some (.text "z")) ∧
    ∃ s', Stepwise.perform (set Badges.label (.text "z"))
        ⟨Badges.shown, Badges.session⟩ = (.ok (), s') ∧
      s'.entry.state = .modified ∧ s'.entry.get Badges.label = Badges.shown.get Badges.label := by
  have hknows : Badges.type.Knows Badges.label :=
    EntityType.knows_of_mem (List.mem_singleton_self _)
  constructor
  · obtain ⟨⟨-, hruns⟩, hroutes⟩ := set_routes
      (s := ⟨Badges.shown.attach Badges.tray, Badges.session⟩) (p := Badges.label) (v := .text "z")
      (Badges.shown_regular.attach (by decide)) hknows
    obtain ⟨s', hrun⟩ := hruns ⟨rfl, _, rfl⟩
    obtain ⟨w, hw, hplace, -⟩ := hroutes s' hrun
    cases hw
    refine ⟨s', hrun, ?_⟩
    rcases hplace with ⟨before, t, after, hdiverted⟩ | hstored
    · rw [hdiverted.changes]
      exact ⟨rfl, t.holding Badges.label (.text "z"), by simp, hdiverted.held⟩
    · have hmem : Badges.tray ∈ (Badges.shown.attach Badges.tray).sidecars :=
        List.mem_cons_of_mem _ (List.mem_singleton_self _)
      exact absurd (hstored.direct Badges.tray hmem) (by decide)
  · obtain ⟨⟨-, hruns⟩, hroutes⟩ := set_routes (s := ⟨Badges.shown, Badges.session⟩)
      (p := Badges.label) (v := .text "z") Badges.shown_regular hknows
    obtain ⟨s', hrun⟩ := hruns ⟨rfl, _, rfl⟩
    obtain ⟨w, hw, hplace, -⟩ := hroutes s' hrun
    cases hw
    refine ⟨s', hrun, ?_⟩
    rcases hplace with ⟨before, t, after, hdiverted⟩ | hstored
    · have hmem : t ∈ before ++ t :: after := by simp
      rw [← hdiverted.sidecars] at hmem
      obtain rfl := List.mem_singleton.1 hmem
      exact absurd hdiverted.takes (by decide)
    · exact ⟨(hstored.marked ⟨⟨_, rfl, rfl⟩, .inl rfl⟩).1,
        hstored.unseen ⟨Badges.overlay "A" "x", List.mem_singleton_self _, by decide⟩⟩

end Action

end EntityMapper
