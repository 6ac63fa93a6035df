import Mathlib.Logic.Relation
import DeclAnalysis.Proofs.Tree.Records

/-!
# Unknown fields are passed over

An object that stands for a node may have fields that are none of the node. Whatever is added to
them, changed in them or taken away from them, at any depth, the same is read. The number of a node
is no field of it either.
-/

namespace DeclAnalysis

namespace Schema

theorem fieldParts_append (fields fields' : List (String × Json)) :
    fieldParts (fields ++ fields') = fieldParts fields ++ fieldParts fields' := by
  simp only [fieldParts_eq_map, List.map_append]

theorem map_fst_fieldParts (fields : List (String × Json)) :
    (fieldParts fields).map Prod.fst = fields.map Prod.fst := by
  rw [fieldParts_eq_map, List.map_map]
  rfl

theorem parts_eq_map (items : List Json) : parts items = items.map part := by
  induction items with
  | nil => rfl
  | cons item rest ih => rw [parts, ih, List.map_cons]

/-! ## Fields that may stand for each other -/

namespace Slots

variable {fs : List Field} {f : Field} {name : String} {x x' : Part}

theorem fill_of_notMem (h : name ∉ fs.map Field.name) (slots : Slots fs) :
    fill name x fs slots = .ok slots := by
  induction fs with
  | nil => rfl
  | cons f fs ih =>
      rw [List.map_cons, List.mem_cons, not_or] at h
      rw [fill, if_neg (Ne.symm h.1), ih h.2]
      rfl

/-- A field is filled by what the parts give for it. -/
theorem fill_congr
    (hf : fs.find? (·.name = name) = some f)
    (hread : x.read f.arity f.item = x'.read f.arity f.item) (slots : Slots fs) :
    fill name x fs slots = fill name x' fs slots := by
  induction fs with
  | nil => rfl
  | cons g fs ih =>
      by_cases hname : g.name = name
      · rw [List.find?_cons_of_pos (by simpa using hname)] at hf
        obtain rfl := Option.some.inj hf
        rw [fill, fill, if_pos hname, if_pos hname, hread]
      · rw [List.find?_cons_of_neg (by simpa using hname)] at hf
        rw [fill, fill, if_neg hname, if_neg hname, ih hf]

theorem fillAll_append (ps ps' : List (String × Part)) (slots : Slots fs) :
    fillAll fs (ps ++ ps') slots = (fillAll fs ps slots).bind (fillAll fs ps') := by
  induction ps generalizing slots with
  | nil => rfl
  | cons p ps ih =>
      obtain ⟨name, x⟩ := p
      rw [List.cons_append, fillAll, fillAll]
      cases fill name x fs slots with
      | error e => rfl
      | ok slots => exact ih slots

theorem fillAll_of_notMem
    {ps : List (String × Part)} (h : ∀ name ∈ ps.map Prod.fst, name ∉ fs.map Field.name)
    (slots : Slots fs) :
    fillAll fs ps slots = .ok slots := by
  induction ps with
  | nil => rfl
  | cons p ps ih =>
      obtain ⟨name, x⟩ := p
      rw [List.map_cons, List.forall_mem_cons] at h
      rw [fillAll, fill_of_notMem h.1]
      exact ih h.2

end Slots

/-- The one stretch of fields gives what the other gives. -/
def Interchangeable (fs : List Field) (ps ps' : List (String × Part)) : Prop :=
  ∀ slots, Slots.fillAll fs ps slots = Slots.fillAll fs ps' slots

theorem interchangeable_of_notMem
    {fs : List Field} {ps ps' : List (String × Part)}
    (h : ∀ name ∈ ps.map Prod.fst, name ∉ fs.map Field.name)
    (h' : ∀ name ∈ ps'.map Prod.fst, name ∉ fs.map Field.name) :
    Interchangeable fs ps ps' := by
  intro slots
  rw [Slots.fillAll_of_notMem h, Slots.fillAll_of_notMem h']

theorem interchangeable_singleton
    {fs : List Field} {f : Field} {name : String} {x x' : Part}
    (hf : fs.find? (·.name = name) = some f)
    (hread : x.read f.arity f.item = x'.read f.arity f.item) :
    Interchangeable fs [(name, x)] [(name, x')] := by
  intro slots
  rw [Slots.fillAll, Slots.fillAll, Slots.fill_congr hf hread]

section Nodes

variable {α : Type} {indexed : Bool} {variants : List (Variant α)} {v : Variant α} {tag : Json}

theorem Variant.ofFields_congr
    {before after ps ps' : List (String × Part)} (h : Interchangeable v.fields ps ps') :
    v.ofFields (before ++ ps ++ after) = v.ofFields (before ++ ps' ++ after) := by
  have hfill (slots : Slots v.fields) :
      Slots.fillAll v.fields (before ++ ps ++ after) slots =
        Slots.fillAll v.fields (before ++ ps' ++ after) slots := by
    simp only [Slots.fillAll_append]
    exact congrArg (fun fill => ((Slots.fillAll v.fields before slots).bind fill).bind _) (funext h)
  rw [ofFields, ofFields, hfill]

/-! ## Tags -/

/-- The value of the field that holds the tag. -/
def tag? (fields : List (String × Json)) : Option Json :=
  (fields.find? (·.1 = tagField)).map Prod.snd

/-- The fields of the kind of node that a tag names. There are none if it names no kind. -/
def taggedFields (indexed : Bool) (variants : List (Variant α)) (tag : Option Json) :
    List Field :=
  match tag.map (variantOf indexed variants) with
  | some (.ok v) => v.fields
  | _ => []

theorem taggedFields_of_variantOf
    (h : variantOf indexed variants tag = .ok v) :
    taggedFields indexed variants (some tag) = v.fields := by
  rw [taggedFields, Option.map_some, h]

theorem mem_of_variantOf
    (h : variantOf indexed variants tag = .ok v) :
    v ∈ variants := by
  unfold variantOf at h
  dsimp only at h
  split at h
  · split at h
    case h_1 hfind =>
      obtain rfl := Except.ok.inj h
      exact List.mem_of_find?_eq_some hfind
    case h_2 => cases h
  · split at h
    · split at h
      case h_1 hget =>
        obtain rfl := Except.ok.inj h
        exact List.mem_of_getElem? hget
      case h_2 => cases h
    · cases h
  · cases h

theorem notMem_taggedFields
    {name : String} (h : ∀ v ∈ variants, name ∉ v.fields.map Field.name) (tag : Option Json) :
    name ∉ (taggedFields indexed variants tag).map Field.name := by
  unfold taggedFields
  split
  case h_1 v heq =>
    obtain ⟨json, rfl, hvariant⟩ := Option.map_eq_some_iff.mp heq
    exact h v (mem_of_variantOf hvariant)
  case h_2 => exact List.not_mem_nil

/-- Only the tag is taken out from among the fields. -/
theorem splitTag_append
    {before mid after : List (String × Part)} (h : tagField ∉ mid.map Prod.fst) :
    splitTag (before ++ mid ++ after) =
      (splitTag (before ++ after)).map fun (tag, _) =>
        (tag, before.filter (·.1 ≠ tagField) ++ mid ++ after.filter (·.1 ≠ tagField)) := by
  have htags : mid.filter (·.1 = tagField) = [] := by
    rw [List.filter_eq_nil_iff]
    intro field hfield hname
    exact h (List.mem_map.mpr ⟨field, hfield, of_decide_eq_true hname⟩)
  have hmid : mid.filter (·.1 ≠ tagField) = mid := by
    rw [List.filter_eq_self]
    intro field hfield
    exact decide_eq_true fun hname => h (List.mem_map.mpr ⟨field, hfield, hname⟩)
  have hnot (fields : List (String × Part)) :
      fields.filter (not ∘ fun field => decide (field.1 = tagField)) =
        fields.filter (·.1 ≠ tagField) :=
    List.filter_congr fun field _ => (decide_not ..).symm
  simp only [splitTag, List.partition_eq_filter_filter, hnot, List.filter_append, htags, hmid,
    List.append_nil]
  rcases before.filter (·.1 = tagField) ++ after.filter (·.1 = tagField) with
    _ | ⟨tag, _ | ⟨other, rest⟩⟩
  · rfl
  · rfl
  · rfl

theorem tag?_of_splitTag
    {fields : List (String × Json)} {tag : Part} {rest : List (String × Part)}
    (h : splitTag (fieldParts fields) = .ok (tag, rest)) :
    tag? fields = some tag.json := by
  have hfind : tag? fields = (fields.filter (·.1 = tagField)).head?.map Prod.snd := by
    rw [List.head?_filter]
    rfl
  have htags : (fieldParts fields).filter (·.1 = tagField) =
      fieldParts (fields.filter (·.1 = tagField)) :=
    fieldParts_filter fields (· = tagField)
  rw [splitTag, List.partition_eq_filter_filter, htags] at h
  rw [hfind]
  cases hkinds : fields.filter (·.1 = tagField) with
  | nil =>
      rw [hkinds] at h
      cases h
  | cons kind others =>
      rw [hkinds] at h
      cases others with
      | nil =>
          obtain ⟨rfl, -⟩ := Prod.mk.inj (Except.ok.inj h)
          exact congrArg some (part_json kind.2).symm
      | cons other others => cases h

theorem readTagged_object_congr
    (title : String) {before old new after : List (String × Json)}
    (hold : tagField ∉ old.map Prod.fst) (hnew : tagField ∉ new.map Prod.fst)
    (h : Interchangeable (taggedFields indexed variants (tag? (before ++ old ++ after)))
      (fieldParts old) (fieldParts new)) :
    readTagged indexed title variants (.object (fieldParts (before ++ old ++ after))) =
      readTagged indexed title variants (.object (fieldParts (before ++ new ++ after))) := by
  have hold' : tagField ∉ (fieldParts old).map Prod.fst := by rwa [map_fst_fieldParts]
  have hnew' : tagField ∉ (fieldParts new).map Prod.fst := by rwa [map_fst_fieldParts]
  have htag (tag : Part) (rest : List (String × Part))
      (hsplit : splitTag (fieldParts (before ++ old ++ after)) = .ok (tag, rest)) :=
    tag?_of_splitTag hsplit
  simp only [fieldParts_append, splitTag_append hold'] at htag
  simp only [readTagged, fieldParts_append, splitTag_append hold', splitTag_append hnew']
  cases hsplit : splitTag (fieldParts before ++ fieldParts after) with
  | error e => rfl
  | ok split =>
      obtain ⟨tag, rest⟩ := split
      rw [hsplit] at htag
      rw [htag tag _ rfl] at h
      show (do
        let v ← variantOf indexed variants tag.json
        v.ofFields _) = (do
        let v ← variantOf indexed variants tag.json
        v.ofFields _)
      cases hvariant : variantOf indexed variants tag.json with
      | error e => rfl
      | ok v =>
          rw [taggedFields_of_variantOf hvariant] at h
          exact Variant.ofFields_congr h

/-! ## Arrays -/

/-- An item is read as what its field holds. -/
theorem readItems_congr
    {fs : List Field} {before after : List Part} {x x' : Part} {f : Field}
    (hf : fs[before.length]? = some f)
    (hread : x.read f.arity f.item = x'.read f.arity f.item) (expected : String) (index : Nat) :
    readItems expected fs index (before ++ x :: after) =
      readItems expected fs index (before ++ x' :: after) := by
  induction before generalizing fs index with
  | nil =>
      cases fs with
      | nil => cases hf
      | cons g fs =>
          obtain rfl := Option.some.inj hf
          rw [List.nil_append, List.nil_append, readItems, readItems, hread]
  | cons y before ih =>
      cases fs with
      | nil => cases hf
      | cons g fs => rw [List.cons_append, List.cons_append, readItems, readItems, ih hf]

theorem Variant.ofItems_congr
    {items items' : List Part}
    (h : ∀ expected index,
      readItems expected v.fields index items = readItems expected v.fields index items') :
    v.ofItems items = v.ofItems items' := by
  rw [ofItems, ofItems, h]

theorem readTagged_array_congr
    (title : String) {items items' : List Part}
    (h : ∀ expected index,
      readItems expected (taggedFields indexed variants (some tag)) index items =
        readItems expected (taggedFields indexed variants (some tag)) index items') :
    readTagged indexed title variants (.array (part tag :: items)) =
      readTagged indexed title variants (.array (part tag :: items')) := by
  simp only [readTagged, part_json]
  cases hvariant : variantOf indexed variants tag with
  | error e => rfl
  | ok v =>
      rw [taggedFields_of_variantOf hvariant] at h
      exact Variant.ofItems_congr h

end Nodes

/-! ## Positions -/

/-- Where a value stands: for a whole file, or for what a field holds. -/
inductive Position where
  | file
  | of (a : Arity) (i : Item)

namespace Position

/-- What is read at a position. -/
abbrev Value : Position → Type
  | file => String × List Declaration
  | of a i => a.Of i.Value

/-- Reads the value that stands at a position. -/
def read : (p : Position) → Json → Result p.Value
  | file => readFile
  | of a i => fun json => readLayer (layer json) a i

/-- A node at the position names its kind by a tag. -/
def isTagged : Position → Bool
  | of .one .specifier | of .one .expr | of .one .declaration | of .one .topDeclaration => true
  | _ => false

/-- The fields of the node at a position, the tag of which may be needed to know them. Nothing else
than a node has fields. -/
def fields? (tag : Option Json) : Position → Option (List Field)
  | file => some Schema.file.fields
  | of .one .typeRef => some Schema.typeRef.fields
  | of .one .parameter => some Schema.parameter.fields
  | of .one .accessor => some Schema.accessor.fields
  | of .one .importDirective => some Schema.importDirective.fields
  | of .one .specifier => some (taggedFields true specifiers tag)
  | of .one .expr => some (taggedFields true exprs tag)
  | of .one .declaration => some (taggedFields true declarations tag)
  | of .one .topDeclaration => some (taggedFields false declarations tag)
  | _ => none

/-- The names of the fields of the node at a position, that of the tag included. -/
def names? (p : Position) (tag : Option Json) : Option (List String) :=
  (p.fields? tag).map fun fs =>
    if p.isTagged then tagField :: fs.map Field.name else fs.map Field.name

variable {p : Position} {fs : List Field}

theorem read_object_congr
    {before old new after : List (String × Json)}
    (hfields : p.fields? (tag? (before ++ old ++ after)) = some fs)
    (hold : p.isTagged = true → tagField ∉ old.map Prod.fst)
    (hnew : p.isTagged = true → tagField ∉ new.map Prod.fst)
    (h : Interchangeable fs (fieldParts old) (fieldParts new)) :
    p.read (.object (before ++ old ++ after)) = p.read (.object (before ++ new ++ after)) := by
  have hrecord {α : Type} (v : Variant α)
      (hv : Interchangeable v.fields (fieldParts old) (fieldParts new)) :
      v.ofFields (fieldParts (before ++ old ++ after)) =
        v.ofFields (fieldParts (before ++ new ++ after)) := by
    simp only [fieldParts_append]
    exact Variant.ofFields_congr hv
  match p with
  | file =>
      obtain rfl := Option.some.inj hfields
      exact hrecord _ h
  | of .one .typeRef | of .one .parameter | of .one .accessor | of .one .importDirective =>
      obtain rfl := Option.some.inj hfields
      exact hrecord _ h
  | of .one .specifier =>
      obtain rfl := Option.some.inj hfields
      exact readTagged_object_congr specifierTitle (hold rfl) (hnew rfl) h
  | of .one .expr =>
      obtain rfl := Option.some.inj hfields
      exact readTagged_object_congr "" (hold rfl) (hnew rfl) h
  | of .one .declaration | of .one .topDeclaration =>
      obtain rfl := Option.some.inj hfields
      exact readTagged_object_congr declarationTitle (hold rfl) (hnew rfl) h
  | of .one .bool | of .one .text | of .one .literal | of .one .operator | of .optional _
  | of .many _ | of .optionalMany _ => cases hfields

theorem read_array_congr
    {items items' : List Json} (htagged : p.isTagged = false) (hfields : p.fields? none = some fs)
    (hlength : items.length = items'.length)
    (h : ∀ expected index,
      readItems expected fs index (parts items) = readItems expected fs index (parts items')) :
    p.read (.array items) = p.read (.array items') := by
  match p with
  | file =>
      obtain rfl := Option.some.inj hfields
      show readFile (.array items) = readFile (.array items')
      simp only [readFile, h, hlength]
  | of .one .typeRef | of .one .parameter | of .one .accessor | of .one .importDirective =>
      obtain rfl := Option.some.inj hfields
      exact Variant.ofItems_congr h
  | of .one .specifier | of .one .expr | of .one .declaration | of .one .topDeclaration =>
      cases htagged
  | of .one .bool | of .one .text | of .one .literal | of .one .operator | of .optional _
  | of .many _ | of .optionalMany _ => cases hfields

theorem read_tagged_array_congr
    {tag : Json} {items items' : List Json} (htagged : p.isTagged = true)
    (hfields : p.fields? (some tag) = some fs)
    (h : ∀ expected index,
      readItems expected fs index (parts items) = readItems expected fs index (parts items')) :
    p.read (.array (tag :: items)) = p.read (.array (tag :: items')) := by
  match p with
  | of .one .specifier =>
      obtain rfl := Option.some.inj hfields
      exact readTagged_array_congr specifierTitle h
  | of .one .expr => rfl
  | of .one .declaration | of .one .topDeclaration =>
      obtain rfl := Option.some.inj hfields
      exact readTagged_array_congr declarationTitle h
  | file | of .one .typeRef | of .one .parameter | of .one .accessor | of .one .importDirective
  | of .one .bool | of .one .text | of .one .literal | of .one .operator | of .optional _
  | of .many _ | of .optionalMany _ => cases htagged

/-- The tag and the number of a node are no fields of it. -/
theorem notMem_names
    {tag : Option Json} (h : p.fields? tag = some fs) {name : String}
    (hname : name ∈ [tagField, "id"]) :
    name ∉ fs.map Field.name := by
  have hspecifiers :
      ∀ name ∈ [tagField, "id"], ∀ v ∈ specifiers, name ∉ v.fields.map Field.name := by
    decide
  have hexprs : ∀ name ∈ [tagField, "id"], ∀ v ∈ exprs, name ∉ v.fields.map Field.name := by
    decide
  have hdeclarations :
      ∀ name ∈ [tagField, "id"], ∀ v ∈ declarations, name ∉ v.fields.map Field.name := by
    decide
  have hrecords : ∀ name ∈ [tagField, "id"],
      ∀ fs ∈ [Schema.file.fields, typeRef.fields, parameter.fields, accessor.fields,
        importDirective.fields], name ∉ fs.map Field.name := by
    decide
  match p with
  | file | of .one .typeRef | of .one .parameter | of .one .accessor | of .one .importDirective =>
      obtain rfl := Option.some.inj h
      exact hrecords name hname _ (by simp)
  | of .one .specifier =>
      obtain rfl := Option.some.inj h
      exact notMem_taggedFields (hspecifiers name hname) tag
  | of .one .expr =>
      obtain rfl := Option.some.inj h
      exact notMem_taggedFields (hexprs name hname) tag
  | of .one .declaration | of .one .topDeclaration =>
      obtain rfl := Option.some.inj h
      exact notMem_taggedFields (hdeclarations name hname) tag
  | of .one .bool | of .one .text | of .one .literal | of .one .operator | of .optional _
  | of .many _ | of .optionalMany _ => cases h

end Position

/-! ## Edits -/

/-- One edit of unknown fields in a value that stands at a position. A stretch of fields that the
node does not have gives way to another in one of the objects that stand for nodes, which are
reached through the fields that their nodes do have. -/
inductive Edit : Position → Json → Json → Prop
  | unknown {p : Position} {names : List String} {before old new after : List (String × Json)}
      (hnames : p.names? (tag? (before ++ old ++ after)) = some names)
      (hold : ∀ name ∈ old.map Prod.fst, name ∉ names)
      (hnew : ∀ name ∈ new.map Prod.fst, name ∉ names) :
      Edit p (.object (before ++ old ++ after)) (.object (before ++ new ++ after))
  /-- Inside a field of an object. -/
  | field {p : Position} {fs : List Field} {f : Field} {before after : List (String × Json)}
      {name : String} {json json' : Json}
      (hfields : p.fields? (tag? (before ++ [(name, json)] ++ after)) = some fs)
      (hf : fs.find? (·.name = name) = some f) (h : Edit (.of f.arity f.item) json json') :
      Edit p (.object (before ++ [(name, json)] ++ after))
        (.object (before ++ [(name, json')] ++ after))
  /-- Inside an item of an array of all fields. -/
  | item {p : Position} {fs : List Field} {f : Field} {before after : List Json}
      {json json' : Json} (htagged : p.isTagged = false) (hfields : p.fields? none = some fs)
      (hf : fs[before.length]? = some f) (h : Edit (.of f.arity f.item) json json') :
      Edit p (.array (before ++ json :: after)) (.array (before ++ json' :: after))
  /-- Inside an item of an array of a tag and all fields. -/
  | taggedItem {p : Position} {fs : List Field} {f : Field} {tag : Json} {before after : List Json}
      {json json' : Json} (htagged : p.isTagged = true) (hfields : p.fields? (some tag) = some fs)
      (hf : fs[before.length]? = some f) (h : Edit (.of f.arity f.item) json json') :
      Edit p (.array (tag :: (before ++ json :: after)))
        (.array (tag :: (before ++ json' :: after)))
  /-- Inside an item of a list. -/
  | element {i : Item} {before after : List Json} {json json' : Json}
      (h : Edit (.of .one i) json json') :
      Edit (.of .many i) (.array (before ++ json :: after)) (.array (before ++ json' :: after))
  | optional {i : Item} {json json' : Json} (h : Edit (.of .one i) json json') :
      Edit (.of .optional i) json json'
  | optionalMany {i : Item} {json json' : Json} (h : Edit (.of .many i) json json') :
      Edit (.of .optionalMany i) json json'

namespace Edit

variable {p : Position} {json json' : Json}

/-- There is nothing to edit in null. -/
theorem isNull_eq_false (h : Edit p json json') :
    (layer json).isNull = false ∧ (layer json').isNull = false := by
  induction h with
  | unknown | field | item | taggedItem | element => exact ⟨rfl, rfl⟩
  | optional _ ih | optionalMany _ ih => exact ih

theorem part_read_eq
    {a : Arity} {i : Item} (h : Position.read (.of a i) json = Position.read (.of a i) json') :
    (part json).read a i = (part json').read a i := by
  rw [part_read, part_read]
  exact h

/-- An edit makes no difference to what is read. -/
theorem read_eq (h : Edit p json json') : p.read json = p.read json' := by
  induction h with
  | @unknown p names before old new after hnames hold hnew =>
      obtain ⟨fs, hfields, rfl⟩ := Option.map_eq_some_iff.mp hnames
      have hsub : fs.map Field.name ⊆
          if p.isTagged then tagField :: fs.map Field.name else fs.map Field.name := by
        split
        · exact List.subset_cons_self ..
        · exact List.Subset.refl _
      have htag (htagged : p.isTagged = true) :
          tagField ∈ if p.isTagged then tagField :: fs.map Field.name else fs.map Field.name := by
        rw [if_pos htagged]
        exact List.mem_cons_self
      apply Position.read_object_congr hfields
      · exact fun htagged hmem => hold _ hmem (htag htagged)
      · exact fun htagged hmem => hnew _ hmem (htag htagged)
      · apply interchangeable_of_notMem
        · rw [map_fst_fieldParts]
          exact fun name hname hmem => hold name hname (hsub hmem)
        · rw [map_fst_fieldParts]
          exact fun name hname hmem => hnew name hname (hsub hmem)
  | @field p fs f before after name json json' hfields hf _ ih =>
      have hname : name ∈ fs.map Field.name := by
        have heq : f.name = name := by simpa using List.find?_some hf
        exact List.mem_map.mpr ⟨f, List.mem_of_find?_eq_some hf, heq⟩
      have htag : name ≠ tagField := by
        rintro rfl
        exact Position.notMem_names hfields List.mem_cons_self hname
      have hnot (json : Json) : tagField ∉ [(name, json)].map Prod.fst := by
        simpa using Ne.symm htag
      apply Position.read_object_congr hfields
      · exact fun _ => hnot json
      · exact fun _ => hnot json'
      · exact interchangeable_singleton hf (part_read_eq ih)
  | @item p fs f before after json json' htagged hfields hf _ ih =>
      apply Position.read_array_congr htagged hfields
      · simp
      · intro expected index
        simp only [parts_eq_map, List.map_append, List.map_cons]
        exact readItems_congr (by rwa [List.length_map]) (part_read_eq ih) expected index
  | @taggedItem p fs f tag before after json json' htagged hfields hf _ ih =>
      apply Position.read_tagged_array_congr htagged hfields
      intro expected index
      simp only [parts_eq_map, List.map_append, List.map_cons]
      exact readItems_congr (by rwa [List.length_map]) (part_read_eq ih) expected index
  | @element i before after json json' _ ih =>
      have hread : (part json).read .one i = (part json').read .one i := part_read_eq ih
      show readMany (.array (parts (before ++ json :: after))) i =
        readMany (.array (parts (before ++ json' :: after))) i
      simp only [readMany, parts_eq_map, List.map_append, List.map_cons, List.mapM_append,
        List.mapM_cons, hread]
  | @optional i json json' h ih =>
      have hone : readItem (layer json) i = readItem (layer json') i := ih
      show readLayer (layer json) .optional i = readLayer (layer json') .optional i
      simp only [readLayer, h.isNull_eq_false, hone]
  | @optionalMany i json json' h ih =>
      have hmany : readMany (layer json) i = readMany (layer json') i := ih
      show readLayer (layer json) .optionalMany i = readLayer (layer json') .optionalMany i
      simp only [readLayer, h.isNull_eq_false, hmany]

end Edit

end Schema

namespace SourceFile

open Schema

/-- However often unknown fields are added, changed and removed in the nodes of a file, at whatever
depth, the file is read as before, with the same declarations, numbers and labels, or it is refused
as before. The number of a node is an unknown field of every node. -/
theorem ofJson_eq_of_edits
    {json json' : Json} (h : Relation.ReflTransGen (Edit .file) json json') (name : String) :
    ofJson name json = ofJson name json' ∧
      ∀ (p : Position) (tag : Option Json) (names : List String),
        p.names? tag = some names → "id" ∉ names := by
  constructor
  · have hread : readFile json = readFile json' := by
      induction h with
      | refl => rfl
      | tail _ hedit ih => exact ih.trans hedit.read_eq
    rw [ofJson, ofJson, hread]
  · intro p tag names hnames
    obtain ⟨fs, hfields, rfl⟩ := Option.map_eq_some_iff.mp hnames
    have hid : "id" ∉ fs.map Field.name := Position.notMem_names hfields (by decide)
    split
    · rw [List.mem_cons, not_or]
      exact ⟨by decide, hid⟩
    · exact hid

/-- A function that returns at once, as a JSON value in which the file, the function and the body
may have more fields. -/
def returning (more moreOfFunction moreOfBody : List (String × Json)) : Json :=
  let body := .object (("kind", .string "return") :: moreOfBody)
  let function :=
    .object (("kind", .string "function") :: ("name", .string "f") :: ("body", body) ::
      moreOfFunction)
  .object (("declarations", .array [function]) :: more)

/-- The file gets labels, the function gets a number and the body loses one. -/
theorem ofJson_eq_of_edits_returning :
    let number : List (String × Json) := [("id", .number (.integer 7))]
    let labels : List (String × Json) := [("labels", .array [])]
    ofJson "main" (returning [] [] number) = ofJson "main" (returning labels number []) ∧
      ofJson "main" (returning labels number []) =
        .ok (ofDeclarations "main"
          [.functionDecl { name := "f", body := some (.ret 0 none) }]) := by
  intro number labels
  have hlabels : Edit .file (returning [] [] number) (returning labels [] number) :=
    @Edit.unknown .file _ [_] [] labels [] rfl (by decide) (by decide)
  have hfunction : Edit .file (returning labels [] number) (returning labels number number) := by
    refine @Edit.field .file _ _ [] labels "declarations" _ _ rfl rfl ?_
    refine @Edit.element _ [] [] _ _ ?_
    exact @Edit.unknown _ _ [_, _, _] [] number [] rfl (by decide) (by decide)
  have hbody : Edit .file (returning labels number number) (returning labels number []) := by
    refine @Edit.field .file _ _ [] labels "declarations" _ _ rfl rfl ?_
    refine @Edit.element _ [] [] _ _ ?_
    refine @Edit.field _ _ _ [_, _] number "body" _ _ rfl rfl (.optional ?_)
    exact @Edit.unknown _ _ [_] number [] [] rfl (by decide) (by decide)
  have hedits := ((Relation.ReflTransGen.single hlabels).tail hfunction).tail hbody
  exact ⟨(ofJson_eq_of_edits hedits "main").1, rfl⟩

end SourceFile

end DeclAnalysis
