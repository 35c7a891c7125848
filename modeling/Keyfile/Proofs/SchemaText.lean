import Keyfile.Proofs.JsonText
import Keyfile.Schema.Encoding

/-! Schemas written as JSON and read again. What is read, in whatever form, is a schema that its own JSON gives
back; and so is every schema that is not nested too deep and whose custom types have names of their own. -/
namespace Keyfile

section Nesting

mutual
/-- How many lists and records stand in each other. -/
def Data.nesting : Data → Nat
  | .list items => Data.nestingItems items + 1
  | .record fields => Data.nestingFields fields + 1
  | _ => 0
def Data.nestingItems : List Data → Nat
  | [] => 0
  | d :: ds => max d.nesting (Data.nestingItems ds)
def Data.nestingFields : List (Option String × Data) → Nat
  | [] => 0
  | (_, d) :: fs => max d.nesting (Data.nestingFields fs)
end

variable {levels : Nat}

lemma nesting_list_le_iff {items : List Data} :
    (Data.list items).nesting ≤ levels + 1 ↔ ∀ d ∈ items, d.nesting ≤ levels := by
  rw [Data.nesting, Nat.add_le_add_iff_right]
  induction items with
  | nil => simp [Data.nestingItems]
  | cons d ds ih => rw [Data.nestingItems, Nat.max_le, ih, List.forall_mem_cons]

lemma nesting_object_le_iff {fields : List (String × Data)} :
    (Data.object fields).nesting ≤ levels + 1 ↔ ∀ f ∈ fields, f.2.nesting ≤ levels := by
  rw [Data.object, Data.nesting, Nat.add_le_add_iff_right]
  induction fields with
  | nil => simp [Data.nestingFields]
  | cons f fs ih => rw [List.map_cons, Data.nestingFields, Nat.max_le, ih, List.forall_mem_cons]

lemma exact_text (s : String) : Json.Exact (.text s) := by
  rw [Json.Exact]
  trivial

lemma exact_object {fields : List (String × Data)} (h : ∀ f ∈ fields, Json.Exact f.2) :
    Json.Exact (.object fields) := by
  rw [Data.object, Json.Exact]
  induction fields with
  | nil => trivial
  | cons f fs ih =>
    obtain ⟨first, others⟩ := List.forall_mem_cons.mp h
    exact ⟨rfl, first, ih others⟩

lemma exact_list {items : List Data} (h : ∀ d ∈ items, Json.Exact d) : Json.Exact (.list items) := by
  rw [Json.Exact]
  induction items with
  | nil => trivial
  | cons d ds ih =>
    obtain ⟨first, others⟩ := List.forall_mem_cons.mp h
    exact ⟨first, ih others⟩

end Nesting

section Reading
variable {α β γ : Type}

lemma mapM_map_eq_some {read : β → Option γ} {write : α → β} {content : α → γ} {xs : List α}
    (each : ∀ x ∈ xs, read (write x) = some (content x)) : (xs.map write).mapM read = some (xs.map content) := by
  induction xs with
  | nil => rfl
  | cons x xs ih =>
    obtain ⟨first, others⟩ := List.forall_mem_cons.mp each
    rw [List.map_cons, List.mapM_cons, first, ih others]
    rfl

lemma exists_of_mem_mapM {read : α → Option β} {xs : List α} {ys : List β} (h : xs.mapM read = some ys) :
    ∀ y ∈ ys, ∃ x, read x = some y := by
  induction xs generalizing ys with
  | nil =>
    obtain rfl : [] = ys := Option.some.inj h
    exact nofun
  | cons x xs ih =>
    rw [List.mapM_cons] at h
    obtain ⟨z, first, h⟩ := Option.bind_eq_some_iff.mp h
    obtain ⟨zs, others, same⟩ := Option.bind_eq_some_iff.mp h
    obtain rfl : z :: zs = ys := Option.some.inj same
    exact List.forall_mem_cons.mpr ⟨⟨x, first⟩, ih others⟩

lemma listOf?_map {read : Data → Option α} {write : α → Data} {xs : List α}
    (each : ∀ x ∈ xs, read (write x) = some x) : Shape.listOf? read (.list (xs.map write)) = some xs :=
  (mapM_map_eq_some each).trans (congrArg some (List.map_id xs))

lemma exists_of_listOf? {read : Data → Option α} {d : Data} {xs : List α} (h : Shape.listOf? read d = some xs) :
    ∀ x ∈ xs, ∃ d, read d = some x := by
  cases d with
  | list items => exact exists_of_mem_mapM h
  | _ => cases h

lemma exists_of_orDefault_list {read : Data → Option α} {field : Option Data} {xs : List α}
    (h : Shape.orDefault [] (Shape.listOf? read) field = some xs) : ∀ x ∈ xs, ∃ d, read d = some x := by
  cases field with
  | none => cases h; exact nofun
  | some d => exact exists_of_listOf? h

lemma orDefault_nullable_map {read : Data → Option α} {write : α → Data} (content : Option α)
    (told : ∀ a, write a ≠ .null) (reads : ∀ a, content = some a → read (write a) = some a) :
    Shape.orDefault none (Shape.nullable read) (content.map write) = some content := by
  cases content with
  | none => rfl
  | some a =>
    rw [Option.map_some, Shape.orDefault, Shape.nullable, reads a rfl]
    · rfl
    · exact told a

lemma exists_of_orDefault_nullable {read : Data → Option α} {field : Option Data} {a : α}
    (h : Shape.orDefault none (Shape.nullable read) field = some (some a)) : ∃ d, read d = some a := by
  cases field with
  | none => cases h
  | some d =>
    rw [Shape.orDefault] at h
    unfold Shape.nullable at h
    split at h
    · cases h
    · obtain ⟨b, read_d, same⟩ := Option.map_eq_some_iff.mp h
      exact ⟨d, read_d.trans same⟩

lemma orDefault_nullable_level {read : Data → Option (List α)} {write : α → Data} {children : Option (List α)}
    (level : ∀ xs, children = some xs → read (.list (xs.map write)) = some xs) :
    Shape.orDefault none (Shape.nullable read) (children.map fun xs => .list (xs.map write)) = some children :=
  orDefault_nullable_map children nofun level

lemma within_eq_some_iff {levels : Nat} {read : Data → Option α} {d : Data} {a : α} :
    Shape.within levels read d = some a ↔ read d = some a ∧ (Shape.isNested d → levels ≠ 0) := by
  unfold Shape.within
  by_cases deep : levels = 0 ∧ Shape.isNested d = true
  · simp [deep]
  · rw [if_neg deep, iff_self_and]
    exact fun _ nested none => deep ⟨none, nested⟩

end Reading

section Fields

/-- A structure written field by field, those without content left out. -/
def Data.ofFields (fields : List (String × Option Data)) : Data :=
  .object (fields.flatMap fun f => Data.optional f.1 f.2)

lemma forall_mem_optional {p : Data → Prop} {name : String} {content : Option Data} :
    (∀ f ∈ Data.optional name content, p f.2) ↔ ∀ d, content = some d → p d := by
  cases content <;> simp [Data.optional]

lemma forall_mem_flatMap_optional {p : Data → Prop} {fields : List (String × Option Data)} :
    (∀ f ∈ fields.flatMap fun f => Data.optional f.1 f.2, p f.2) ↔ ∀ f ∈ fields, ∀ d, f.2 = some d → p d := by
  simp only [List.forall_mem_flatMap, forall_mem_optional]

lemma filter_optional (name other : String) (content : Option Data) :
    (Data.optional other content).filter (·.1 == name) = if other = name then Data.optional other content else [] := by
  cases content <;> by_cases same : other = name <;> simp [Data.optional, same]

lemma filter_flatMap_optional {fields : List (String × Option Data)} (distinct : (fields.map (·.1)).Nodup)
    {name : String} {content : Option Data} (listed : (name, content) ∈ fields) :
    (fields.flatMap fun f => Data.optional f.1 f.2).filter (·.1 == name) = Data.optional name content := by
  induction fields with
  | nil => cases listed
  | cons f fs ih =>
    obtain ⟨unused, distinct⟩ := List.nodup_cons.mp distinct
    rw [List.flatMap_cons, List.filter_append, filter_optional]
    rcases List.mem_cons.mp listed with rfl | later
    · -- no later field has the name again
      have others : (fs.flatMap fun f => Data.optional f.1 f.2).filter (·.1 == name) = [] := by
        rw [List.filter_flatMap, List.flatMap_eq_nil_iff]
        intro g member
        have other : g.1 ≠ name := fun same => unused (List.mem_map.mpr ⟨g, member, same⟩)
        rw [filter_optional, if_neg other]
      rw [if_pos rfl, others, List.append_nil]
    · have other : f.1 ≠ name := fun same => unused (List.mem_map.mpr ⟨_, later, same.symm⟩)
      rw [if_neg other, List.nil_append, ih distinct later]

lemma fieldNamed?_object (fields : List (String × Data)) (name : String) (content : Option Data)
    (found : fields.filter (·.1 == name) = Data.optional name content) :
    Shape.fieldNamed? (fields.map fun f => (some f.1, f.2)) name = some content := by
  have found : (fields.map fun f => (some f.1, f.2)).filter (fun f => f.1 == some name) =
      (Data.optional name content).map fun f => (some f.1, f.2) := by
    rw [← found, List.filter_map]
    rfl
  rw [Shape.fieldNamed?, found]
  cases content <;> rfl

/-- A structure is read field by field as it was written. -/
lemma fields?_ofFields {fields : List (String × Option Data)} (distinct : (fields.map (·.1)).Nodup) :
    Shape.fields? (fields.map (·.1)) (.ofFields fields) = some (fields.map (·.2)) := by
  rw [Data.ofFields, Data.object, Shape.fields?, if_pos (by simp)]
  refine mapM_map_eq_some fun f listed => ?_
  exact fieldNamed?_object _ _ _ (filter_flatMap_optional distinct listed)

end Fields

section Entries
variable {ι : Type}

mutual
/-- What is said of an entry and of all entries below it. -/
def Entry.infos : Entry ι → List ι
  | ⟨_, _, info, children⟩ => info :: Entry.infosBelow children
def Entry.infosBelow : Option (List (Entry ι)) → List ι
  | none => []
  | some entries => Entry.infosAll entries
def Entry.infosAll : List (Entry ι) → List ι
  | [] => []
  | e :: es => e.infos ++ Entry.infosAll es
end

lemma mem_infosAll {i : ι} {es : List (Entry ι)} : i ∈ Entry.infosAll es ↔ ∃ e ∈ es, i ∈ e.infos := by
  induction es with
  | nil => simp [Entry.infosAll]
  | cons e es ih => simp [Entry.infosAll, ih]

lemma mem_infos {i : ι} {e : Entry ι} :
    i ∈ e.infos ↔ i = e.info ∨ ∃ es, e.children = some es ∧ ∃ child ∈ es, i ∈ child.infos := by
  obtain ⟨value, title, info, children⟩ := e
  cases children <;> simp [Entry.infos, Entry.infosBelow, mem_infosAll]

variable (extra : ι → List (String × Data))

lemma toDataAll_eq_map (es : List (Entry ι)) : Entry.toDataAll extra es = es.map (Entry.toData extra) := by
  induction es with
  | nil => rfl
  | cons e es ih => rw [Entry.toDataAll, List.map_cons, ih]

/-- All fields that an entry is written with. -/
def Entry.written (e : Entry ι) : List (String × Data) :=
  ("value", .text e.value) :: ("title", .text e.title) :: extra e.info ++
    Data.optional "suggestions" (e.children.map fun es => .list (es.map (Entry.toData extra)))

lemma toData_eq_object (e : Entry ι) : e.toData extra = .object (e.written extra) := by
  obtain ⟨value, title, info, children⟩ := e
  cases children with
  | none => rfl
  | some es =>
    rw [Entry.toData, Entry.levelFields, toDataAll_eq_map]
    rfl

lemma toData_eq_ofFields (e : Entry ι) {own : List (String × Option Data)}
    (same : extra e.info = own.flatMap fun f => Data.optional f.1 f.2) :
    e.toData extra = .ofFields (("value", some (.text e.value)) :: ("title", some (.text e.title)) :: own ++
      [("suggestions", e.children.map fun es => .list (es.map (Entry.toData extra)))]) := by
  rw [toData_eq_object, Entry.written, same, Data.ofFields, List.flatMap_append, List.flatMap_singleton]
  rfl

lemma forall_mem_written {p : Data → Prop} (text : ∀ s, p (.text s)) {e : Entry ι} :
    (∀ f ∈ e.written extra, p f.2) ↔
      (∀ f ∈ extra e.info, p f.2) ∧ ∀ es, e.children = some es → p (.list (es.map (Entry.toData extra))) := by
  cases level : e.children <;> simp [Entry.written, level, Data.optional, text, or_imp, forall_and]

lemma nesting_toData_le_iff {levels : Nat} {e : Entry ι} :
    (e.toData extra).nesting ≤ levels + 1 ↔ (∀ f ∈ extra e.info, f.2.nesting ≤ levels) ∧
      ∀ es, e.children = some es → (Data.list (es.map (Entry.toData extra))).nesting ≤ levels := by
  rw [toData_eq_object, nesting_object_le_iff]
  exact forall_mem_written extra (p := (·.nesting ≤ levels)) fun s => Nat.zero_le levels

lemma exact_toData_of {e : Entry ι} (fields : ∀ f ∈ extra e.info, Json.Exact f.2)
    (level : ∀ es, e.children = some es → Json.Exact (.list (es.map (Entry.toData extra)))) :
    Json.Exact (e.toData extra) := by
  rw [toData_eq_object]
  exact exact_object ((forall_mem_written extra exact_text).mpr ⟨fields, level⟩)

end Entries

/-- How entries of one kind are written and read. -/
structure EntryForm (ι : Type) where
  /-- The fields beyond name and title. -/
  extra : ι → List (String × Data)
  /-- An entry, given the levels left below it and how its children are read. -/
  shape? : Nat → (Data → Option (List (Entry ι))) → Data → Option (Entry ι)
  /-- An entry nested no deeper than so many levels. -/
  ofData? : Nat → Data → Option (Entry ι)
  /-- What can be told from the fields it is written with. -/
  Proper : ι → Prop
  ofData?_zero : ∀ d, ofData? 0 d = none
  ofData?_one : ∀ d, ofData? 1 d = shape? 0 (fun _ => none) d
  ofData?_more : ∀ levels d, ofData? (levels + 2) d = shape? (levels + 1) (Shape.listOf? (ofData? levels)) d
  exact_extra : ∀ i, ∀ f ∈ extra i, Json.Exact f.2
  shape?_toData : ∀ levels children? e, Proper e.info → (∀ f ∈ extra e.info, f.2.nesting ≤ levels) →
    (∀ es, e.children = some es → children? (.list (es.map (Entry.toData extra))) = some es) →
    shape? levels children? (e.toData extra) = some e
  of_shape? : ∀ levels children? d e, shape? levels children? d = some e →
    Proper e.info ∧ (∀ f ∈ extra e.info, f.2.nesting ≤ levels) ∧
      ∀ es, e.children = some es → ∃ d, children? d = some es

namespace EntryForm
variable {ι : Type} (form : EntryForm ι)

/-- Entries with proper contents are read back, as deep as they are nested. -/
theorem ofData?_toData (levels : Nat) (e : Entry ι) (proper : ∀ i ∈ e.infos, form.Proper i)
    (shallow : (e.toData form.extra).nesting ≤ levels) : form.ofData? levels (e.toData form.extra) = some e := by
  have own : form.Proper e.info := proper _ (mem_infos.mpr (.inl rfl))
  match levels with
  | 0 => exact absurd shallow (by rw [toData_eq_object, Data.object, Data.nesting]; omega)
  | 1 =>
    obtain ⟨fields, below⟩ := (nesting_toData_le_iff form.extra).mp shallow
    rw [form.ofData?_one]
    refine form.shape?_toData 0 _ e own fields fun es level => ?_
    have deep := below es level
    rw [Data.nesting] at deep
    omega
  | levels + 2 =>
    -- the entry takes one level, and the list of its children another
    obtain ⟨fields, below⟩ := (nesting_toData_le_iff form.extra).mp shallow
    rw [form.ofData?_more]
    refine form.shape?_toData (levels + 1) _ e own fields fun es level => ?_
    have deep := nesting_list_le_iff.mp (below es level)
    refine listOf?_map fun child member => ?_
    refine ofData?_toData levels child ?_ (deep _ (List.mem_map_of_mem member))
    exact fun i said => proper i (mem_infos.mpr (.inr ⟨es, level, child, member, said⟩))

/-- What is read has proper contents and is nested no deeper than it was allowed to be. -/
theorem of_ofData? (levels : Nat) {d : Data} {e : Entry ι} (h : form.ofData? levels d = some e) :
    (e.toData form.extra).nesting ≤ levels ∧ ∀ i ∈ e.infos, form.Proper i := by
  match levels with
  | 0 => exact nomatch (form.ofData?_zero d).symm.trans h
  | 1 =>
    rw [form.ofData?_one] at h
    obtain ⟨own, fields, level⟩ := form.of_shape? 0 _ d e h
    have leaf : ∀ es, e.children ≠ some es := fun es some => nomatch level es some
    refine ⟨(nesting_toData_le_iff form.extra).mpr ⟨fields, fun es below => absurd below (leaf es)⟩, ?_⟩
    intro i said
    rcases mem_infos.mp said with rfl | ⟨es, below, _⟩
    · exact own
    · exact absurd below (leaf es)
  | levels + 2 =>
    rw [form.ofData?_more] at h
    obtain ⟨own, fields, level⟩ := form.of_shape? _ _ d e h
    have children : ∀ es, e.children = some es → ∀ child ∈ es,
        (child.toData form.extra).nesting ≤ levels ∧ ∀ i ∈ child.infos, form.Proper i := by
      intro es below child member
      obtain ⟨d, read⟩ := level es below
      obtain ⟨item, item_read⟩ := exists_of_listOf? read child member
      exact of_ofData? levels item_read
    refine ⟨(nesting_toData_le_iff form.extra).mpr ⟨fields, fun es below => ?_⟩, ?_⟩
    · refine nesting_list_le_iff.mpr ?_
      intro d listed
      obtain ⟨child, member, rfl⟩ := List.mem_map.mp listed
      exact (children es below child member).1
    · intro i said
      rcases mem_infos.mp said with rfl | ⟨es, below, child, member, said⟩
      · exact own
      · exact (children es below child member).2 i said

mutual
lemma exact_toData : (e : Entry ι) → Json.Exact (e.toData form.extra)
  | ⟨_, _, info, children⟩ => exact_toData_of form.extra (form.exact_extra info) (exact_level children)
lemma exact_level : (children : Option (List (Entry ι))) → ∀ es, children = some es →
    Json.Exact (.list (es.map (Entry.toData form.extra)))
  | none, _, absent => nomatch absent
  | some es, _, rfl => exact_list (exact_items es)
lemma exact_items : (es : List (Entry ι)) → ∀ d ∈ es.map (Entry.toData form.extra), Json.Exact d
  | [] => nofun
  | e :: es => List.forall_mem_cons.mpr ⟨exact_toData e, exact_items es⟩
end

end EntryForm

namespace ValueType

/-- The names of the types that are checked. -/
def checkedNames : List String := ["array", "string", "float", "int", "bool"]

lemma ofName_name_iff {t : ValueType} : ofName t.name = t ↔ ∀ name, t = custom name → name ∉ checkedNames := by
  cases t with
  | custom name =>
    simp only [custom.injEq, forall_eq', ValueType.name, checkedNames]
    unfold ofName
    split <;> simp_all
  | _ => simp [ValueType.name, ofName]

end ValueType

namespace Rule

/-- The type of the values, if one is given, can be told from its name. -/
def Proper (r : Rule) : Prop := ∀ t, r.valueType = some t → ValueType.ofName t.name = t

def fields (r : Rule) : List (String × Option Data) :=
  [("type", (r.valueType.map ValueType.name).map .text), ("default", r.defaultValue.map .text),
    ("example", r.samples.map .text), ("condition", r.conditionText.map .text)]

lemma toData_eq_ofFields (r : Rule) : r.toData = .ofFields r.fields := by
  simp [toData, Data.ofFields, fields, Function.comp_def]

lemma eq_text_of_mem_fields {r : Rule} {f : String × Option Data} (listed : f ∈ r.fields) {d : Data}
    (given : f.2 = some d) : ∃ s, d = .text s := by
  have written : f.2 ∈ [r.valueType.map ValueType.name, r.defaultValue, r.samples, r.conditionText].map
      (Option.map Data.text) := List.mem_map_of_mem listed
  obtain ⟨content, -, same⟩ := List.mem_map.mp written
  obtain ⟨s, -, rfl⟩ := Option.map_eq_some_iff.mp (same.trans given)
  exact ⟨s, rfl⟩

lemma ofData?_toData {r : Rule} (proper : r.Proper) : ofData? r.toData = some r := by
  have read : Shape.fields? fieldNames r.toData = some (r.fields.map (·.2)) := by
    rw [toData_eq_ofFields]
    exact fields?_ofFields (show fieldNames.Nodup by decide)
  have same : (r.valueType.map ValueType.name).map ValueType.ofName = r.valueType := by
    cases given : r.valueType with
    | none => rfl
    | some t => rw [Option.map_some, Option.map_some, proper t given]
  have text : ∀ content : Option String,
      Shape.orDefault none (Shape.nullable Shape.text?) (content.map .text) = some content :=
    fun content => orDefault_nullable_map content nofun fun _ _ => rfl
  rw [ofData?, read]
  simp only [fields, List.map_cons, List.map_nil, text, same, Option.bind_eq_bind, Option.bind_some]

lemma proper_of_ofData? {d : Data} {r : Rule} (h : ofData? d = some r) : r.Proper := by
  unfold ofData? at h
  split at h
  · obtain ⟨valueType, -, h⟩ := Option.bind_eq_some_iff.mp h
    obtain ⟨defaultValue, -, h⟩ := Option.bind_eq_some_iff.mp h
    obtain ⟨samples, -, h⟩ := Option.bind_eq_some_iff.mp h
    obtain ⟨condition, -, h⟩ := Option.bind_eq_some_iff.mp h
    cases h
    intro t given
    obtain ⟨name, -, rfl⟩ := Option.map_eq_some_iff.mp given
    rw [ValueType.name_ofName]
  · cases h

lemma isNested_of_ofData? {d : Data} {r : Rule} (h : ofData? d = some r) : Shape.isNested d = true := by
  cases d <;> first | rfl | exact nomatch h

lemma toData_ne_null (r : Rule) : r.toData ≠ .null := nofun

lemma nesting_toData_eq (r : Rule) : r.toData.nesting = 1 := by
  refine Nat.le_antisymm ?_ (by rw [toData, Data.object, Data.nesting]; omega)
  rw [toData_eq_ofFields]
  refine nesting_object_le_iff.mpr (forall_mem_flatMap_optional (p := (·.nesting ≤ 0)) |>.mpr ?_)
  intro f listed d given
  obtain ⟨s, rfl⟩ := eq_text_of_mem_fields listed given
  exact Nat.le_refl 0

lemma exact_toData (r : Rule) : Json.Exact r.toData := by
  rw [toData_eq_ofFields]
  refine exact_object (forall_mem_flatMap_optional.mpr fun f listed d given => ?_)
  obtain ⟨s, rfl⟩ := eq_text_of_mem_fields listed given
  exact exact_text s

end Rule

namespace ContainerEntry
variable {children? : Data → Option (List ContainerEntry)}

lemma shape?_toData {e : ContainerEntry}
    (level : ∀ es, e.children = some es → children? (.list (es.map toData)) = some es) :
    shape? children? e.toData = some e := by
  have read : Shape.fields? fieldNames e.toData = some [some (.text e.value), some (.text e.title),
      e.children.map fun es => .list (es.map toData)] := by
    rw [toData, toData_eq_ofFields _ e (show [] = List.flatMap _ [] from rfl)]
    exact fields?_ofFields (show fieldNames.Nodup by decide)
  rw [shape?, read]
  simp only [orDefault_nullable_level level]
  cases e
  rfl

lemma of_shape? {d : Data} {e : ContainerEntry} (h : shape? children? d = some e) {es : List ContainerEntry}
    (level : e.children = some es) : ∃ d, children? d = some es := by
  unfold shape? at h
  split at h
  · obtain ⟨value, -, h⟩ := Option.bind_eq_some_iff.mp h
    obtain ⟨title, -, h⟩ := Option.bind_eq_some_iff.mp h
    obtain ⟨children, read, h⟩ := Option.bind_eq_some_iff.mp h
    cases h
    subst level
    exact exists_of_orDefault_nullable read
  · cases h

/-- Containers have a name, a title and maybe a level below. -/
def form : EntryForm Unit where
  extra _ := []
  shape? _ := shape?
  ofData? := ofData?
  Proper _ := True
  ofData?_zero _ := rfl
  ofData?_one _ := rfl
  ofData?_more _ _ := rfl
  exact_extra _ := nofun
  shape?_toData _ _ _ _ _ := shape?_toData
  of_shape? _ _ _ _ h := ⟨trivial, nofun, fun _ => of_shape? h⟩

end ContainerEntry

lemma KeyInfo.forall_mem_fields {p : Data → Prop} {i : KeyInfo} :
    (∀ f ∈ i.fields, p f.2) ↔ p (.text i.role.name) ∧ ∀ r, i.rule = some r → p r.toData := by
  rw [fields, List.forall_mem_cons, forall_mem_optional]
  simp only [Option.map_eq_some_iff, forall_exists_index, and_imp, forall_apply_eq_imp_iff₂]

namespace KeyEntry
variable {levels : Nat} {children? : Data → Option (List KeyEntry)}

lemma shape?_toData {e : KeyEntry} (proper : ∀ r, e.info.rule = some r → r.Proper)
    (shallow : ∀ f ∈ e.info.fields, f.2.nesting ≤ levels)
    (level : ∀ es, e.children = some es → children? (.list (es.map toData)) = some es) :
    shape? levels children? e.toData = some e := by
  have own : e.info.fields =
      [("type", some (.text e.info.role.name)), ("assign", e.info.rule.map Rule.toData)].flatMap
        fun f => Data.optional f.1 f.2 := by
    simp [KeyInfo.fields, Data.optional]
  have read : Shape.fields? fieldNames e.toData = some [some (.text e.value), some (.text e.title),
      some (.text e.info.role.name), e.info.rule.map Rule.toData,
      e.children.map fun es => .list (es.map toData)] := by
    rw [toData, toData_eq_ofFields _ e own]
    exact fields?_ofFields (show fieldNames.Nodup by decide)
  have rule : Shape.orDefault none (Shape.nullable (Shape.within levels Rule.ofData?))
      (e.info.rule.map Rule.toData) = some e.info.rule := by
    refine orDefault_nullable_map _ Rule.toData_ne_null fun r given => within_eq_some_iff.mpr ?_
    have deep := (KeyInfo.forall_mem_fields (p := (·.nesting ≤ levels)).mp shallow).2 r given
    rw [Rule.nesting_toData_eq] at deep
    exact ⟨Rule.ofData?_toData (proper r given), fun _ => by omega⟩
  have role : Shape.orDefault .value (Shape.within levels fun d => (Shape.choiceName? d).bind KeyRole.ofName?)
      (some (.text e.info.role.name)) = some e.info.role := by
    rw [Shape.orDefault, within_eq_some_iff]
    exact ⟨KeyRole.ofName?_name _, fun nested => absurd nested Bool.false_ne_true⟩
  rw [shape?, read]
  simp only [rule, role, orDefault_nullable_level level]
  cases e
  rfl

lemma of_shape? {d : Data} {e : KeyEntry} (h : shape? levels children? d = some e) :
    (∀ r, e.info.rule = some r → r.Proper ∧ levels ≠ 0) ∧
      ∀ es, e.children = some es → ∃ d, children? d = some es := by
  unfold shape? at h
  split at h
  · obtain ⟨value, -, h⟩ := Option.bind_eq_some_iff.mp h
    obtain ⟨title, -, h⟩ := Option.bind_eq_some_iff.mp h
    obtain ⟨role, -, h⟩ := Option.bind_eq_some_iff.mp h
    obtain ⟨rule, rule_read, h⟩ := Option.bind_eq_some_iff.mp h
    obtain ⟨children, read, h⟩ := Option.bind_eq_some_iff.mp h
    cases h
    refine ⟨?_, ?_⟩
    · rintro r rfl
      obtain ⟨d, within⟩ := exists_of_orDefault_nullable rule_read
      obtain ⟨read, room⟩ := within_eq_some_iff.mp within
      exact ⟨Rule.proper_of_ofData? read, room (Rule.isNested_of_ofData? read)⟩
    · rintro es rfl
      exact exists_of_orDefault_nullable read
  · cases h

/-- Keys have a role besides, and maybe a rule. -/
def form : EntryForm KeyInfo where
  extra := KeyInfo.fields
  shape? := shape?
  ofData? := ofData?
  Proper i := ∀ r, i.rule = some r → r.Proper
  ofData?_zero _ := rfl
  ofData?_one _ := rfl
  ofData?_more _ _ := rfl
  exact_extra _ := KeyInfo.forall_mem_fields.mpr ⟨exact_text _, fun r _ => r.exact_toData⟩
  shape?_toData _ _ _ := shape?_toData
  of_shape? levels _ _ e h := by
    obtain ⟨rule, level⟩ := of_shape? h
    refine ⟨fun r given => (rule r given).1, KeyInfo.forall_mem_fields (p := (·.nesting ≤ levels)).mpr ?_, level⟩
    refine ⟨Nat.zero_le _, fun r given => ?_⟩
    have room := (rule r given).2
    rw [Rule.nesting_toData_eq]
    omega

end KeyEntry

namespace Schema

/-- The types that the rules of a schema ask for. -/
def valueTypes (s : Schema) : List ValueType :=
  (Entry.infosAll s.keys).filterMap fun i => i.rule.bind (·.valueType)

/-- A schema that its JSON tells apart: its custom types have names of their own, and it is not nested too deep. -/
structure Plain (s : Schema) : Prop where
  named : ∀ name, .custom name ∈ s.valueTypes → name ∉ ValueType.checkedNames
  shallow : s.toData.nesting ≤ maxNesting

lemma exact_schemaData (s : Schema) : Json.Exact s.toData := by
  refine exact_object ?_
  simp only [List.forall_mem_cons, List.not_mem_nil, false_imp_iff, implies_true, and_true]
  exact ⟨exact_list (ContainerEntry.form.exact_items s.containers), exact_list (KeyEntry.form.exact_items s.keys)⟩

lemma ofJson?_toJson (s : Schema) : ofJson? s.toJson = ofData? s.toData := by
  rw [ofJson?, toJson, Json.read?_compact s.exact_schemaData]
  rfl

lemma nesting_schemaData_le_iff {s : Schema} : s.toData.nesting ≤ maxNesting ↔
    (∀ e ∈ s.containers, e.toData.nesting ≤ maxNesting - 2) ∧ ∀ e ∈ s.keys, e.toData.nesting ≤ maxNesting - 2 := by
  have top : maxNesting = maxNesting - 2 + 1 + 1 := rfl
  rw [toData, top, nesting_object_le_iff]
  simp only [List.forall_mem_cons, nesting_list_le_iff, List.forall_mem_map, List.not_mem_nil, false_imp_iff,
    implies_true, and_true]
  rfl

lemma named_iff {s : Schema} : (∀ name, .custom name ∈ s.valueTypes → name ∉ ValueType.checkedNames) ↔
    ∀ e ∈ s.keys, ∀ i ∈ e.infos, ∀ r, i.rule = some r → r.Proper := by
  constructor
  · intro named e member i said r given t asked
    refine ValueType.ofName_name_iff.mpr ?_
    rintro name rfl
    refine named name (List.mem_filterMap.mpr ⟨i, mem_infosAll.mpr ⟨e, member, said⟩, ?_⟩)
    rw [given, Option.bind_some, asked]
  · intro proper name listed
    obtain ⟨i, said, asked⟩ := List.mem_filterMap.mp listed
    obtain ⟨e, member, said⟩ := mem_infosAll.mp said
    obtain ⟨r, given, asked⟩ := Option.bind_eq_some_iff.mp asked
    exact ValueType.ofName_name_iff.mp (proper e member i said r given _ asked) name rfl

lemma ofData?_toData_of {s : Schema} (plain : s.Plain) : ofData? s.toData = some s := by
  obtain ⟨containers_shallow, keys_shallow⟩ := nesting_schemaData_le_iff.mp plain.shallow
  have proper := named_iff.mp plain.named
  have written : s.toData = .ofFields [("containers", some (.list (s.containers.map ContainerEntry.toData))),
      ("keys", some (.list (s.keys.map KeyEntry.toData)))] := rfl
  have read : Shape.fields? ["containers", "keys"] s.toData =
      some [some (.list (s.containers.map ContainerEntry.toData)), some (.list (s.keys.map KeyEntry.toData))] := by
    rw [written]
    exact fields?_ofFields (show ["containers", "keys"].Nodup by decide)
  have containers : Shape.listOf? (ContainerEntry.ofData? (maxNesting - 2))
      (.list (s.containers.map ContainerEntry.toData)) = some s.containers :=
    listOf?_map fun e member =>
      ContainerEntry.form.ofData?_toData _ e (fun _ _ => trivial) (containers_shallow e member)
  have keys : Shape.listOf? (KeyEntry.ofData? (maxNesting - 2)) (.list (s.keys.map KeyEntry.toData)) = some s.keys :=
    listOf?_map fun e member => KeyEntry.form.ofData?_toData _ e (proper e member) (keys_shallow e member)
  rw [ofData?, read]
  simp only [Shape.orDefault, containers, keys]
  rfl

lemma plain_of_ofData? {d : Data} {s : Schema} (h : ofData? d = some s) : s.Plain := by
  unfold ofData? at h
  split at h
  · obtain ⟨containers, containers_read, h⟩ := Option.bind_eq_some_iff.mp h
    obtain ⟨keys, keys_read, h⟩ := Option.bind_eq_some_iff.mp h
    cases h
    have containers_shallow : ∀ e ∈ containers, e.toData.nesting ≤ maxNesting - 2 := by
      intro e member
      obtain ⟨d, read⟩ := exists_of_orDefault_list containers_read e member
      exact (ContainerEntry.form.of_ofData? (maxNesting - 2) read).1
    have keys_plain : ∀ e ∈ keys, e.toData.nesting ≤ maxNesting - 2 ∧ ∀ i ∈ e.infos, KeyEntry.form.Proper i := by
      intro e member
      obtain ⟨d, read⟩ := exists_of_orDefault_list keys_read e member
      exact KeyEntry.form.of_ofData? (maxNesting - 2) read
    exact ⟨named_iff.mpr fun e member => (keys_plain e member).2,
      nesting_schemaData_le_iff.mpr ⟨containers_shallow, fun e member => (keys_plain e member).1⟩⟩
  · cases h

/-- Whatever is read as a schema, in whichever form it is written, is plain; and the plain schemas are those that
their JSON gives back. So reading, writing and reading again loses nothing, and the JSON no longer changes. -/
theorem json_round_trip :
    (∀ text s, ofJson? text = some s →
      ofJson? s.toJson = some s ∧ (ofJson? s.toJson).map toJson = some s.toJson) ∧
    ∀ s : Schema, ofJson? s.toJson = some s ↔ s.Plain := by
  have exactly_plain : ∀ s : Schema, ofJson? s.toJson = some s ↔ s.Plain := by
    intro s
    rw [ofJson?_toJson]
    exact ⟨plain_of_ofData?, ofData?_toData_of⟩
  refine ⟨fun text s read => ?_, exactly_plain⟩
  obtain ⟨d, -, read⟩ := Option.bind_eq_some_iff.mp read
  have again := (exactly_plain s).mpr (plain_of_ofData? read)
  exact ⟨again, by rw [again, Option.map_some]⟩

/-- One entry as the list of its fields with its role as a record, one as a record with fields out of order, left
out and null, and a field that is not known. -/
theorem json_round_trip_mixed_forms :
    let text := "\x7b\"note\":1,\"keys\":[[\"net\",\"Net\",\x7b\"namespace\":null\x7d,null," ++
      "[\x7b\"assign\":\x7b\"default\":null,\"type\":\"color\"\x7d," ++
      "\"value\":\"p\\u00f6rt\"\x7d]]]\x7d"
    let written := "\x7b\"containers\":[],\"keys\":[\x7b\"value\":\"net\",\"title\":\"Net\"," ++
      "\"type\":\"namespace\",\"suggestions\":[\x7b\"value\":\"pört\",\"title\":\"\"," ++
      "\"type\":\"value\",\"assign\":\x7b\"type\":\"color\"\x7d\x7d]\x7d]\x7d"
    ∃ s, ofJson? text = some s ∧ s.toJson = written ∧ ofJson? written = some s ∧ s.Plain := by
  intro text written
  have found : (ofJson? text).map toJson = some written := by decide +kernel
  obtain ⟨s, read, json⟩ := Option.map_eq_some_iff.mp found
  have again := (json_round_trip.1 text s read).1
  exact ⟨s, read, json, json ▸ again, (json_round_trip.2 s).mp again⟩

end Schema
end Keyfile
