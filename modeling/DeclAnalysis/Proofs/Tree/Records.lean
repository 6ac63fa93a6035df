import DeclAnalysis.Tree.Decode
import DeclAnalysis.Proofs.Tree.Encoding

/-!
# Reading records

A record is an object of named fields some of which may be left out. If every field of a kind of
node has in a record what stands for its value, the node is read from the record, in whatever order
the fields stand there.
-/

namespace DeclAnalysis

namespace Schema

open Json (record present)

/-! ## Values -/

/-- The layer of a value. -/
def layer : Json → Layer
  | .array items => .array (parts items)
  | .object fields => .object (fieldParts fields)
  | leaf => .leaf leaf

theorem part_json (json : Json) : (part json).json = json := by
  cases json <;> rfl

theorem part_read (json : Json) : (part json).read = readLayer (layer json) := by
  cases json <;> rfl

theorem fieldParts_eq_map (fields : List (String × Json)) :
    fieldParts fields = fields.map (Prod.map id part) := by
  induction fields with
  | nil => rfl
  | cons field rest ih => rw [fieldParts, ih, List.map_cons, Prod.map_apply, id]

/-- From the JSON value, as many items as an arity says are read. -/
def Reads (json : Json) (a : Arity) (i : Item) (x : a.Of i.Value) : Prop :=
  readLayer (layer json) a i = .ok x

variable {i : Item} {json : Json}

/-- No item is read from null. -/
theorem Reads.isNull_eq_false {x : i.Value} (h : Reads json .one i x) :
    (layer json).isNull = false := by
  cases json with
  | null => cases i <;> cases h
  | _ => rfl

theorem Reads.optional {x : i.Value} (h : Reads json .one i x) :
    Reads json .optional i (some x) := by
  have hread : readItem (layer json) i = .ok x := h
  rw [Reads, readLayer, h.isNull_eq_false, hread]
  rfl

variable {α : Type} {encode : α → Json} {decode : α → i.Value}

theorem reads_many {items : List α} (h : ∀ a ∈ items, Reads (encode a) .one i (decode a)) :
    Reads (.array (items.map encode)) .many i (items.map decode) := by
  have hitems :
      (parts (items.map encode)).mapM (fun part => part.read .one i)
        = .ok (items.map decode) := by
    induction items with
    | nil => rfl
    | cons a rest ih =>
        have hread : (part (encode a)).read .one i = .ok (decode a) := by
          rw [part_read]
          exact h a List.mem_cons_self
        rw [List.map_cons, parts, List.mapM_cons, hread,
          ih fun b hb => h b (List.mem_cons_of_mem _ hb)]
        rfl
  exact hitems

theorem reads_optionalMany
    {items : List α} (h : ∀ a ∈ items, Reads (encode a) .one i (decode a)) :
    Reads (.array (items.map encode)) .optionalMany i (some (items.map decode)) := by
  have hread : readMany (layer (.array (items.map encode))) i = .ok (items.map decode) :=
    reads_many h
  rw [Reads, readLayer, hread]
  rfl

/-! ## Fields -/

/-- A field of a node is `x` if it stands in an object as `json?` does. -/
def Provides (f : Field) (json? : Option Json) (x : f.Value) : Prop :=
  match json? with
  | some json => Reads json f.arity f.item x
  | none => f.absent = some x

variable {name : String}

theorem provides_optional {a? : Option α} (h : ∀ a ∈ a?, Reads (encode a) .one i (decode a)) :
    Provides (.optional name i) (a?.map encode) (a?.map decode) := by
  cases a? with
  | none => rfl
  | some a => exact (h a rfl).optional

theorem provides_flag (brief b : Bool) : Provides (.flag name) (Json.flag brief name b).2 b := by
  cases brief <;> cases b <;> rfl

theorem provides_many
    (brief : Bool) {items : List α} (h : ∀ a ∈ items, Reads (encode a) .one i (decode a)) :
    Provides (.many name i) (Json.list brief name (items.map encode)).2 (items.map decode) := by
  rw [Json.list]
  split
  case isTrue hempty =>
    have hnil : items = [] := by simpa using (Bool.and_eq_true_iff.mp hempty).2
    subst hnil
    rfl
  case isFalse => exact reads_many h

theorem provides_optionalMany
    {items? : Option (List α)}
    (h : ∀ items ∈ items?, ∀ a ∈ items, Reads (encode a) .one i (decode a)) :
    Provides (.optionalMany name i) (items?.map fun items => .array (items.map encode))
      (items?.map (List.map decode)) := by
  cases items? with
  | none => rfl
  | some items => exact reads_optionalMany (h items rfl)

theorem lookup_filter_of_ne
    {fields : List (String × Option Json)} {name other : String} (h : other ≠ name) :
    (fields.filter (·.1 ≠ name)).lookup other = fields.lookup other := by
  induction fields with
  | nil => rfl
  | cons field rest ih =>
      obtain ⟨first, value⟩ := field
      by_cases hfirst : first = name
      · have hne : (other == first) = false := by rwa [beq_eq_false_iff_ne, hfirst]
        rw [List.filter_cons_of_neg (by simpa using hfirst), ih, List.lookup_cons, hne]
      · rw [List.filter_cons_of_pos (by simpa using hfirst), List.lookup_cons, ih, List.lookup_cons]

theorem lookup_of_mem
    {fields : List (String × Option Json)} {name : String} {value : Option Json}
    (hnames : (fields.map Prod.fst).Nodup) (hmem : (name, value) ∈ fields) :
    fields.lookup name = some value := by
  induction fields with
  | nil => cases hmem
  | cons field rest ih =>
      obtain ⟨first, other⟩ := field
      rw [List.map_cons, List.nodup_cons] at hnames
      rcases List.mem_cons.mp hmem with heq | hrest
      · cases heq
        exact List.lookup_cons_self
      · have hne : (name == first) = false := by
          rw [beq_eq_false_iff_ne]
          rintro rfl
          exact hnames.1 (List.mem_map.mpr ⟨_, hrest, rfl⟩)
        rw [List.lookup_cons, hne, ih hnames.2 hrest]

theorem mem_of_lookup
    {fields : List (String × Option Json)} {name : String} {value : Option Json}
    (h : fields.lookup name = some value) : (name, value) ∈ fields := by
  obtain ⟨before, after, rfl, -⟩ := List.lookup_eq_some_iff.mp h
  simp

/-- All fields of a node stand in an object of some fields. -/
def ProvidesAll (fields : List (String × Option Json)) : (fs : List Field) → Values fs → Prop
  | [], _ => True
  | f :: fs, values =>
    Provides f (fields.lookup f.name).join values.1 ∧ ProvidesAll fields fs values.2

/-- Those fields that have the name are read from a value. -/
def ReadsField (name : String) (json : Json) : (fs : List Field) → Values fs → Prop
  | [], _ => True
  | f :: fs, values =>
    (f.name = name → Reads json f.arity f.item values.1) ∧ ReadsField name json fs values.2

variable {fields : List (String × Option Json)}

theorem ProvidesAll.readsField
    {fs : List Field} {values : Values fs} (h : ProvidesAll fields fs values)
    (hlookup : fields.lookup name = some (some json)) : ReadsField name json fs values := by
  induction fs with
  | nil => trivial
  | cons f fs ih =>
      refine ⟨?_, ih h.2⟩
      rintro rfl
      have hprovides := h.1
      rwa [hlookup] at hprovides

theorem ProvidesAll.filter
    {fs : List Field} {values : Values fs} (h : ProvidesAll fields fs values)
    (hnames : name ∉ fs.map Field.name) :
    ProvidesAll (fields.filter (·.1 ≠ name)) fs values := by
  induction fs with
  | nil => trivial
  | cons f fs ih =>
      rw [List.map_cons, List.mem_cons, not_or] at hnames
      refine ⟨?_, ih h.2 hnames.2⟩
      rw [lookup_filter_of_ne (Ne.symm hnames.1)]
      exact h.1

namespace Slots

/-- The values of those fields whose names are known. -/
def known (names : List String) : (fs : List Field) → Values fs → Slots fs
  | [], _ => ()
  | f :: fs, values => (if f.name ∈ names then some values.1 else none, known names fs values.2)

theorem known_nil (fs : List Field) (values : Values fs) : known [] fs values = empty fs := by
  induction fs with
  | nil => rfl
  | cons f fs ih => rw [known, empty, ih, if_neg List.not_mem_nil]

/-- A name of no field makes no value known. -/
theorem known_append_of_notMem
    {fs : List Field} {names : List String} (hname : name ∉ fs.map Field.name)
    (values : Values fs) : known (names ++ [name]) fs values = known names fs values := by
  induction fs with
  | nil => rfl
  | cons f fs ih =>
      rw [List.map_cons, List.mem_cons, not_or] at hname
      have hne : f.name ≠ name := Ne.symm hname.1
      simp [known, ih hname.2, hne]

theorem fill_known
    {fs : List Field} {values : Values fs} {names : List String}
    (hfs : (fs.map Field.name).Nodup) (hname : name ∉ names)
    (h : ReadsField name json fs values) :
    fill name (part json) fs (known names fs values) = .ok (known (names ++ [name]) fs values) := by
  induction fs with
  | nil => rfl
  | cons f fs ih =>
      rw [List.map_cons, List.nodup_cons] at hfs
      rw [known, fill]
      by_cases heq : f.name = name
      · have hread : (part json).read f.arity f.item = .ok values.1 := by
          rw [part_read]
          exact h.1 heq
        rw [if_pos heq, heq, if_neg hname, hread, known, heq,
          known_append_of_notMem (heq ▸ hfs.1)]
        simp
      · rw [if_neg heq, ih hfs.2 h.2, known]
        simp [heq]

theorem fillAll_known
    {fs : List Field} {values : Values fs} {present : List (String × Json)} {names : List String}
    (hfs : (fs.map Field.name).Nodup) (hnames : (names ++ present.map Prod.fst).Nodup)
    (h : ∀ field ∈ present, ReadsField field.1 field.2 fs values) :
    fillAll fs (fieldParts present) (known names fs values) =
      .ok (known (names ++ present.map Prod.fst) fs values) := by
  induction present generalizing names with
  | nil => rw [List.map_nil, List.append_nil]; rfl
  | cons field rest ih =>
      have happend : names ++ (field :: rest).map Prod.fst
          = names ++ [field.1] ++ rest.map Prod.fst := by simp
      rw [happend] at hnames ⊢
      have hname : field.1 ∉ names := by
        intro hmem
        have hdisjoint := (List.nodup_append.mp (List.nodup_append.mp hnames).1).2.2
        exact hdisjoint _ hmem _ (List.mem_singleton_self _) rfl
      obtain ⟨first, value⟩ := field
      rw [fieldParts, fillAll, fill_known hfs hname (h _ List.mem_cons_self)]
      exact ih hnames fun field hfield => h field (List.mem_cons_of_mem _ hfield)

theorem complete_known
    {fs : List Field} {values : Values fs} {names : List String}
    (hprovides : ProvidesAll fields fs values)
    (hnames : ∀ name json, fields.lookup name = some (some json) → name ∈ names) :
    complete fs (known names fs values) = .ok values := by
  induction fs with
  | nil => rfl
  | cons f fs ih =>
      rw [known, complete, ih hprovides.2]
      by_cases hname : f.name ∈ names
      · rw [if_pos hname]
        rfl
      · rw [if_neg hname]
        have habsent : f.absent = some values.1 := by
          have hvalue := hprovides.1
          cases hlookup : (fields.lookup f.name).join with
          | none => rwa [hlookup] at hvalue
          | some json =>
              rw [Option.join_eq_some_iff] at hlookup
              exact absurd (hnames _ _ hlookup) hname
        rw [habsent]
        rfl

end Slots

/-! ## Nodes -/

theorem mem_present_iff {field : String × Json} :
    field ∈ present fields ↔ (field.1, some field.2) ∈ fields := by
  rw [present, List.mem_filterMap]
  constructor
  · rintro ⟨other, hother, hfield⟩
    obtain ⟨value, hvalue, rfl⟩ := Option.map_eq_some_iff.mp hfield
    exact hvalue ▸ hother
  · intro hfield
    exact ⟨_, hfield, rfl⟩

variable {β : Type}

namespace Variant

/-- A node of which all fields stand in a record is read from it. -/
theorem ofFields_present
    (v : Variant β) (values : Values v.fields) (hfields : (v.fields.map Field.name).Nodup)
    (hnames : (fields.map Prod.fst).Nodup) (h : ProvidesAll fields v.fields values) :
    v.ofFields (fieldParts (present fields)) = .ok (v.build values) := by
  have hpresent : ((present fields).map Prod.fst).Nodup :=
    hnames.sublist (Json.map_fst_present_sublist fields)
  have hfill :
      Slots.fillAll v.fields (fieldParts (present fields)) (Slots.empty v.fields) =
        .ok (Slots.known ((present fields).map Prod.fst) v.fields values) := by
    rw [← Slots.known_nil v.fields values]
    exact Slots.fillAll_known hfields hpresent fun field hfield =>
      h.readsField (lookup_of_mem hnames (mem_present_iff.mp hfield))
  have hcomplete :
      Slots.complete v.fields (Slots.known ((present fields).map Prod.fst) v.fields values) =
        .ok values := by
    refine Slots.complete_known h fun name json hlookup => ?_
    exact List.mem_map.mpr ⟨(name, json), mem_present_iff.mpr (mem_of_lookup hlookup), rfl⟩
  rw [ofFields, hfill]
  show (do return v.build (← Slots.complete v.fields _)) = _
  rw [hcomplete]
  rfl

/-- A node of a kind that needs no tag is read from a record. -/
theorem ofLayer_record
    (v : Variant β) (values : Values v.fields) (hfields : (v.fields.map Field.name).Nodup)
    (hnames : (fields.map Prod.fst).Nodup) (h : ProvidesAll fields v.fields values) :
    v.ofLayer (layer (record fields)) = .ok (v.build values) :=
  v.ofFields_present values hfields hnames h

end Variant

theorem fieldParts_filter (present : List (String × Json)) (p : String → Bool) :
    (fieldParts present).filter (fun field => p field.1) =
      fieldParts (present.filter fun field => p field.1) := by
  rw [fieldParts_eq_map, fieldParts_eq_map, List.filter_map]
  rfl

theorem present_filter (p : String → Bool) :
    (present fields).filter (fun field => p field.1) =
      present (fields.filter fun field => p field.1) := by
  rw [present, present, List.filter_filterMap, List.filterMap_filter]
  congr 1
  funext field
  obtain ⟨name, value⟩ := field
  cases value with
  | none => simp
  | some value => simp [Option.filter]

theorem filter_eq_singleton
    {fields : List (String × Option Json)} {value : Option Json}
    (hnames : (fields.map Prod.fst).Nodup)
    (hlookup : fields.lookup name = some value) :
    fields.filter (·.1 = name) = [(name, value)] := by
  induction fields with
  | nil => cases hlookup
  | cons field rest ih =>
      obtain ⟨first, other⟩ := field
      rw [List.map_cons, List.nodup_cons] at hnames
      by_cases hfirst : name = first
      · subst hfirst
        rw [List.lookup_cons_self] at hlookup
        cases hlookup
        have hrest : rest.filter (·.1 = name) = [] := by
          rw [List.filter_eq_nil_iff]
          intro field hfield hname
          exact hnames.1 (List.mem_map.mpr ⟨field, hfield, of_decide_eq_true hname⟩)
        rw [List.filter_cons_of_pos (by simp), hrest]
      · have hne : (name == first) = false := beq_eq_false_iff_ne.mpr hfirst
        rw [List.lookup_cons, hne] at hlookup
        rw [List.filter_cons_of_neg (by simpa using Ne.symm hfirst), ih hnames.2 hlookup]

theorem splitTag_present
    {tag : String} (hnames : (fields.map Prod.fst).Nodup)
    (hkind : fields.lookup tagField = some (some (.string tag))) :
    splitTag (fieldParts (present fields)) =
      .ok (part (.string tag), fieldParts (present (fields.filter (·.1 ≠ tagField)))) := by
  have htags : (fieldParts (present fields)).filter (·.1 = tagField)
      = [(tagField, part (.string tag))] := by
    rw [fieldParts_filter _ (· = tagField), present_filter (· = tagField),
      filter_eq_singleton hnames hkind]
    rfl
  have hrest : (fieldParts (present fields)).filter (fun field => !decide (field.1 = tagField))
      = fieldParts (present (fields.filter (·.1 ≠ tagField))) := by
    rw [fieldParts_filter _ (fun name => !decide (name = tagField)),
      present_filter (fun name => !decide (name = tagField))]
    simp
  rw [splitTag, List.partition_eq_filter_filter, htags]
  exact congrArg (fun rest => Except.ok (part (.string tag), rest)) hrest

/-- A node is read from a record that names its kind. -/
theorem readTagged_record
    (indexed : Bool) (title : String) {variants : List (Variant β)}
    (v : Variant β) (values : Values v.fields)
    (hv : variants.find? (·.tag = v.tag) = some v)
    (hfields : (tagField :: v.fields.map Field.name).Nodup)
    (hnames : (fields.map Prod.fst).Nodup)
    (hkind : fields.lookup tagField = some (some (.string v.tag)))
    (h : ProvidesAll fields v.fields values) :
    readTagged indexed title variants (layer (record fields)) = .ok (v.build values) := by
  rw [List.nodup_cons] at hfields
  have hrest : ((fields.filter (·.1 ≠ tagField)).map Prod.fst).Nodup :=
    hnames.sublist (List.filter_sublist.map Prod.fst)
  have hvariant : variantOf indexed variants (.string v.tag) = .ok v := by
    rw [variantOf, hv]
  have hread := v.ofFields_present values hfields.2 hrest (h.filter hfields.1)
  show (do
    let split ← splitTag (fieldParts (present fields))
    let v ← variantOf indexed variants split.1.json
    v.ofFields split.2) = _
  rw [splitTag_present hnames hkind]
  show (do
    let v ← variantOf indexed variants (part (.string v.tag)).json
    v.ofFields _) = _
  rw [part_json, hvariant]
  exact hread

end Schema

end DeclAnalysis
