import Criteria.Config.Load
import Criteria.Proofs.Json.RoundTrip
import Criteria.Proofs.Outcome

/-!
# Configurations that were written

A configuration is written without the parts that are empty, and read with a default for every part
that is missing. Both go by sections, and every section is a list of slots: under each key there is
a value or nothing. What is left out has to be what its default says, in each section for itself.

* `section?_sectionJson` — a section is taken apart into the slots that it was made of;
* `decode_toJson` — a configuration as a value describes the configuration;
* `isWhole_toJson` — a configuration has no other numbers than its limits, so that its texts are
  read back to the same value;
* `read_toJson` — a configuration is read back from its texts.
-/

namespace Criteria.Config

variable {format : Format}

/-- Steps for a list that all succeed. -/
theorem mapM_eq_some {α β : Type} {f : α → Option β} {g : α → β} {items : List α}
    (h : ∀ item ∈ items, f item = some (g item)) : items.mapM f = some (items.map g) := by
  induction items with
  | nil => rfl
  | cons item items ih =>
    obtain ⟨hitem, hitems⟩ := List.forall_mem_cons.1 h
    rw [List.mapM_cons, hitem, ih hitems]
    rfl

/-! ### Sections with slots -/

/-- A section with a slot for every key. What is empty is left out. -/
def sectionJson (slots : List (String × Option Json)) : Json :=
  .object (slots.flatMap fun slot => optional slot.1 slot.2)

theorem ofItems_eq_map (items : List Json) :
    Document.ofItems items = items.map Document.ofJson := by
  induction items with
  | nil => rfl
  | cons item items ih => rw [Document.ofItems, ih, List.map_cons]

theorem ofMembers_eq_map (members : Json.Members) :
    Document.ofMembers members = members.map fun member => (member.1, .ofJson member.2) := by
  induction members with
  | nil => rfl
  | cons member members ih => rw [Document.ofMembers, ih, List.map_cons]

/-- What is in a slot, as the entries of a document. -/
def slotEntry (slot : String × Option Json) : List (String × Document) :=
  slot.2.toList.map fun value => (slot.1, .ofJson value)

theorem ofJson_sectionJson (slots : List (String × Option Json)) :
    Document.ofJson (sectionJson slots) = .table (slots.flatMap slotEntry) := by
  rw [sectionJson, Document.ofJson, ofMembers_eq_map, List.map_flatMap]
  congr 2
  funext slot
  rw [optional, List.map_map]
  rfl

theorem filter_slotEntry (slot : String × Option Json) (key : String) :
    (slotEntry slot).filter (fun entry => entry.1 == key) =
      if slot.1 = key then slotEntry slot else [] := by
  obtain ⟨own, value⟩ := slot
  cases value with
  | none => simp [slotEntry]
  | some value => simp [slotEntry, List.filter_cons]

/-- In a section with different keys, what is in the slot of a key is found there and nowhere
else. -/
theorem filter_flatMap_slotEntry {slots : List (String × Option Json)}
    (hkeys : (slots.map Prod.fst).Nodup) {slot : String × Option Json} (hslot : slot ∈ slots) :
    (slots.flatMap slotEntry).filter (fun entry => entry.1 == slot.1) = slotEntry slot := by
  induction slots with
  | nil => cases hslot
  | cons first slots ih =>
    obtain ⟨hfirst, hkeys⟩ := List.nodup_cons.1 hkeys
    rw [List.flatMap_cons, List.filter_append, filter_slotEntry]
    rcases List.mem_cons.1 hslot with rfl | hslot
    · have hothers : (slots.flatMap slotEntry).filter (fun entry => entry.1 == slot.1) = [] := by
        rw [List.filter_flatMap, List.flatMap_eq_nil_iff]
        intro other hother
        rw [filter_slotEntry, if_neg]
        exact fun heq => hfirst (heq ▸ List.mem_map_of_mem hother)
      rw [if_pos rfl, hothers, List.append_nil]
    · have hne : first.1 ≠ slot.1 := fun heq => hfirst (heq ▸ List.mem_map_of_mem hslot)
      rw [if_neg hne, List.nil_append, ih hkeys hslot]

theorem unrepeated?_of_mem {slots : List (String × Option Json)}
    (hkeys : (slots.map Prod.fst).Nodup) {slot : String × Option Json} (hslot : slot ∈ slots) :
    Document.unrepeated? (slots.flatMap slotEntry) slot.1 = some (slot.2.map .ofJson) := by
  rw [Document.unrepeated?, filter_flatMap_slotEntry hkeys hslot]
  obtain ⟨key, value⟩ := slot
  cases value with
  | none => rfl
  | some value => rfl

/-- **A section is taken apart into its slots.** -/
theorem section?_sectionJson {slots : List (String × Option Json)} {keys : List String}
    (hslots : slots.map Prod.fst = keys) (hkeys : keys.Nodup) :
    (Document.ofJson (sectionJson slots)).section? format keys =
      some (slots.map fun slot => slot.2.map .ofJson) := by
  subst hslots
  rw [ofJson_sectionJson, Document.section?, List.mapM_map]
  exact mapM_eq_some fun slot hslot => unrepeated?_of_mem hkeys hslot

/-- What is in a slot has no other numbers than integers of 64 bits. -/
def IsWholeSlot (slot : String × Option Json) : Prop := ∀ value ∈ slot.2, value.IsWhole

theorem isWhole_sectionJson {slots : List (String × Option Json)}
    (h : ∀ slot ∈ slots, IsWholeSlot slot) : (sectionJson slots).IsWhole := by
  refine Json.isWhole_object.2 fun member hmember => ?_
  obtain ⟨slot, hslot, hmember⟩ := List.mem_flatMap.1 hmember
  obtain ⟨value, hvalue, rfl⟩ := List.mem_map.1 hmember
  exact h slot hslot value (Option.mem_toList.1 hvalue)

/-! ### What is in a slot -/

theorem text?_ofJson (text : String) : (Document.ofJson (.string text)).text? = some text := rfl

theorem optionalEntry_text (value : Option String) :
    optionalEntry Document.text? ((value.map Json.string).map .ofJson) = some value := by
  cases value <;> rfl

theorem optionalEntry_bool (value : Option Bool) :
    optionalEntry Document.bool? ((value.map Json.bool).map .ofJson) = some value := by
  cases value <;> rfl

theorem nat?_ofJson {n : Nat} (hn : n < 2 ^ 64) : (Document.ofJson (.nat n)).nat? = some n := by
  have hbound : (0 : Int) ≤ n ∧ (n : Int).toNat < Nat.pow 2 64 := ⟨Int.natCast_nonneg n, hn⟩
  exact if_pos hbound

theorem list?_ofJson (items : List Json) :
    (Document.ofJson (.array items)).list? = some (items.map .ofJson) := by
  rw [Document.ofJson, ofItems_eq_map]
  rfl

theorem texts?_ofJson (texts : List String) :
    (Document.ofJson (.strings texts)).texts? = some texts := by
  rw [Document.texts?, Json.strings, list?_ofJson, List.map_map]
  show (texts.map _).mapM Document.text? = _
  rw [List.mapM_map]
  exact (mapM_eq_some fun _ _ => rfl).trans (congrArg some (List.map_id texts))

/-- The slot of a list, which is left out if it is empty. -/
def listSlot (items : List Json) : Option Json :=
  if items.isEmpty then none else some (.array items)

theorem unlessEmpty_eq_optional (key : String) (items : List Json) :
    unlessEmpty key items = optional key (listSlot items) := by
  unfold unlessEmpty listSlot
  split <;> rfl

theorem entryOr_strings (texts : List String) :
    entryOr [] Document.texts? (some (.ofJson (.strings texts))) = some texts :=
  texts?_ofJson texts

theorem entryOr_listSlot (texts : List String) :
    entryOr [] Document.texts? ((listSlot (texts.map .string)).map .ofJson) = some texts := by
  cases texts with
  | nil => rfl
  | cons text texts => exact texts?_ofJson (text :: texts)

section

variable {α : Type} {write : α → Json} {read : Document → Option α}

/-- Sections that are read back one by one are read back in a list. -/
theorem listEntry_array (hread : ∀ item, read (.ofJson (write item)) = some item)
    (items : List α) :
    listEntry read (some (.ofJson (.array (items.map write)))) = some items := by
  rw [listEntry, list?_ofJson, List.map_map]
  show (items.map _).mapM read = _
  rw [List.mapM_map]
  exact (mapM_eq_some fun item _ => hread item).trans (congrArg some (List.map_id items))

theorem listEntry_listSlot (hread : ∀ item, read (.ofJson (write item)) = some item)
    (items : List α) :
    listEntry read ((listSlot (items.map write)).map .ofJson) = some items := by
  cases items with
  | nil => rfl
  | cons item items => exact listEntry_array hread (item :: items)

end

/-! ### Sections -/

/-- The slots of the adapter. -/
def AdapterSection.slots (adapter : AdapterSection) : List (String × Option Json) :=
  [("name", adapter.name.map .string), ("backend", adapter.backend.map .string)]

theorem AdapterSection.decode_slots (adapter : AdapterSection) :
    AdapterSection.decode format (.ofJson (sectionJson adapter.slots)) = some adapter := by
  unfold AdapterSection.decode
  rw [section?_sectionJson (by rfl) (by decide)]
  simp only [slots, List.map_cons, List.map_nil, optionalEntry_text, Option.bind_eq_bind,
    Option.bind_some, Option.pure_def]

/-- The slots of the limits. -/
def limitSlots (limits : Limits) : List (String × Option Json) :=
  [("max_depth", some (.nat limits.maxDepth)),
   ("max_input_bytes", some (.nat limits.maxInputBytes)),
   ("max_predicates", some (.nat limits.maxPredicates)),
   ("max_list_len", some (.nat limits.maxListLength)),
   ("max_order_clauses", some (.nat limits.maxOrderClauses))]

theorem limitsJson_eq (limits : Limits) : limitsJson limits = sectionJson (limitSlots limits) := rfl

/-- All limits are numbers of 64 bits. -/
def LimitsFit (limits : Limits) : Prop := ∀ entry ∈ limitPaths limits, entry.2 < 2 ^ 64

instance (limits : Limits) : Decidable (LimitsFit limits) :=
  inferInstanceAs (Decidable (∀ entry ∈ limitPaths limits, entry.2 < 2 ^ 64))

theorem decodeLimits_limitsJson {limits : Limits} (hlimits : LimitsFit limits) :
    decodeLimits format (.ofJson (limitsJson limits)) = some limits := by
  simp only [LimitsFit, limitPaths, List.forall_mem_cons] at hlimits
  obtain ⟨hdepth, hbytes, hpredicates, hlength, hclauses, -⟩ := hlimits
  unfold decodeLimits
  rw [limitsJson_eq, section?_sectionJson (by rfl) (by decide)]
  simp only [limitSlots, List.map_cons, List.map_nil, Option.map_some, entryOr, nat?_ofJson hdepth,
    nat?_ofJson hbytes, nat?_ofJson hpredicates, nat?_ofJson hlength, nat?_ofJson hclauses,
    Option.bind_eq_bind, Option.bind_some, Option.pure_def]

/-- The slots of what is logged. -/
def LoggingSection.slots (logging : LoggingSection) : List (String × Option Json) :=
  [("level", some (.string logging.level))]

theorem LoggingSection.decode_slots (logging : LoggingSection) :
    LoggingSection.decode format (.ofJson (sectionJson logging.slots)) = some logging := by
  unfold LoggingSection.decode
  rw [section?_sectionJson (by rfl) (by decide)]
  rfl

/-- The slots of an argument. -/
def ArgumentSection.slots (arg : ArgumentSection) : List (String × Option Json) :=
  [("name", some (.string arg.name)), ("type", some (.string arg.type))]

theorem ArgumentSection.toJson_eq (arg : ArgumentSection) : arg.toJson = sectionJson arg.slots :=
  rfl

theorem ArgumentSection.decode_toJson (arg : ArgumentSection) :
    ArgumentSection.decode format (.ofJson arg.toJson) = some arg := by
  unfold ArgumentSection.decode
  rw [toJson_eq, section?_sectionJson (by rfl) (by decide)]
  rfl

/-- The slots of a field. -/
def FieldSection.slots (field : FieldSection) : List (String × Option Json) :=
  [("name", some (.string field.name)), ("type", field.type.map .string),
   ("kind", field.kind.map .string), ("column", field.column.map .string),
   ("filterable", field.filterable.map .bool), ("sortable", field.sortable.map .bool),
   ("args", listSlot (field.args.map ArgumentSection.toJson))]

theorem FieldSection.toJson_eq (field : FieldSection) : field.toJson = sectionJson field.slots := by
  simp [toJson, sectionJson, slots, unlessEmpty_eq_optional, optional]

theorem FieldSection.decode_toJson (field : FieldSection) :
    FieldSection.decode format (.ofJson field.toJson) = some field := by
  unfold FieldSection.decode
  rw [toJson_eq, section?_sectionJson (by rfl) (by decide)]
  simp only [slots, List.map_cons, List.map_nil, Option.map_some, text?_ofJson, optionalEntry_text,
    optionalEntry_bool, listEntry_listSlot ArgumentSection.decode_toJson, Option.bind_eq_bind,
    Option.bind_some, Option.pure_def]

/-- The slots of a type. -/
def TypeSection.slots (type : TypeSection) : List (String × Option Json) :=
  [("name", some (.string type.name)), ("kind", some (.string type.sort.word)),
   ("interfaces", listSlot (type.interfaces.map .string)),
   ("members", listSlot (type.members.map .string)),
   ("fields", some (.array (type.fields.map FieldSection.toJson)))]

theorem TypeSection.toJson_eq (type : TypeSection) : type.toJson = sectionJson type.slots := by
  simp [toJson, sectionJson, slots, unlessEmpty_eq_optional, optional]

theorem TypeSort.decode_word (sort : TypeSort) :
    entryOr .object (TypeSort.decode format) (some (.ofJson (.string sort.word))) = some sort := by
  cases sort <;> rfl

theorem TypeSection.decode_toJson (type : TypeSection) :
    TypeSection.decode format (.ofJson type.toJson) = some type := by
  unfold TypeSection.decode
  rw [toJson_eq, section?_sectionJson (by rfl) (by decide)]
  simp only [slots, List.map_cons, List.map_nil, Option.map_some, text?_ofJson,
    TypeSort.decode_word, entryOr_listSlot, listEntry_array FieldSection.decode_toJson,
    Option.bind_eq_bind, Option.bind_some, Option.pure_def]

/-- The slots of an enum. -/
def EnumSection.slots (enum : EnumSection) : List (String × Option Json) :=
  [("name", some (.string enum.name)), ("values", some (.strings enum.values)),
   ("operators", listSlot (enum.operators.map .string))]

theorem EnumSection.toJson_eq (enum : EnumSection) : enum.toJson = sectionJson enum.slots := by
  simp [toJson, sectionJson, slots, unlessEmpty_eq_optional, optional]

theorem EnumSection.decode_toJson (enum : EnumSection) :
    EnumSection.decode format (.ofJson enum.toJson) = some enum := by
  unfold EnumSection.decode
  rw [toJson_eq, section?_sectionJson (by rfl) (by decide)]
  simp only [slots, List.map_cons, List.map_nil, Option.map_some, text?_ofJson, entryOr_strings,
    entryOr_listSlot, Option.bind_eq_bind, Option.bind_some, Option.pure_def]

/-- The slots of the declarations. -/
def SchemaSection.slots (schema : SchemaSection) : List (String × Option Json) :=
  [("roots", some (.strings schema.roots)),
   ("types", some (.array (schema.types.map TypeSection.toJson))),
   ("enums", some (.array (schema.enums.map EnumSection.toJson)))]

theorem SchemaSection.toJson_eq (schema : SchemaSection) :
    schema.toJson = sectionJson schema.slots := rfl

theorem SchemaSection.decode_toJson (schema : SchemaSection) :
    SchemaSection.decode format (.ofJson schema.toJson) = some schema := by
  unfold SchemaSection.decode
  rw [toJson_eq, section?_sectionJson (by rfl) (by decide)]
  simp only [slots, List.map_cons, List.map_nil, Option.map_some, entryOr_strings,
    listEntry_array TypeSection.decode_toJson, listEntry_array EnumSection.decode_toJson,
    Option.bind_eq_bind, Option.bind_some, Option.pure_def]

/-! ### Configurations -/

/-- The slots of a configuration. -/
def slots (config : Config) : List (String × Option Json) :=
  [("adapter", some (sectionJson config.adapter.slots)),
   ("limits", some (limitsJson config.limits)),
   ("logging", some (sectionJson config.logging.slots)),
   ("schema", some config.schema.toJson)]

theorem toJson_eq (config : Config) : config.toJson = sectionJson config.slots := by
  simp [toJson, sectionJson, slots, AdapterSection.slots, LoggingSection.slots, optional]

/-- A configuration as a value describes the configuration, in all formats. -/
theorem decode_toJson {config : Config} (hlimits : LimitsFit config.limits) :
    decode format (.ofJson config.toJson) = some config := by
  unfold decode
  rw [toJson_eq, section?_sectionJson (by rfl) (by decide)]
  simp only [slots, List.map_cons, List.map_nil, Option.map_some, entryOr,
    AdapterSection.decode_slots, decodeLimits_limitsJson hlimits, LoggingSection.decode_slots,
    SchemaSection.decode_toJson, Option.bind_eq_bind, Option.bind_some, Option.pure_def]

/-! ### Numbers of configurations -/

theorem IsWholeSlot.of_isWhole {key : String} {value : Json} (h : value.IsWhole) :
    IsWholeSlot (key, some value) := by
  intro found hfound
  obtain rfl := Option.some.inj hfound
  exact h

theorem isWholeSlot_text (key : String) (value : Option String) :
    IsWholeSlot (key, value.map .string) := by
  intro found hfound
  obtain ⟨text, -, rfl⟩ := Option.map_eq_some_iff.1 hfound
  exact Json.isWhole_string text

theorem isWholeSlot_flag (key : String) (value : Option Bool) :
    IsWholeSlot (key, value.map .bool) := by
  intro found hfound
  obtain ⟨flag, -, rfl⟩ := Option.map_eq_some_iff.1 hfound
  exact Json.isWhole_bool flag

theorem isWhole_array_map {α : Type} {write : α → Json} (h : ∀ item, (write item).IsWhole)
    (items : List α) : (Json.array (items.map write)).IsWhole :=
  Json.isWhole_array.2 (List.forall_mem_map.2 fun item _ => h item)

theorem isWholeSlot_listSlot {α : Type} {write : α → Json} (h : ∀ item, (write item).IsWhole)
    (key : String) (items : List α) : IsWholeSlot (key, listSlot (items.map write)) := by
  unfold listSlot
  split
  · exact nofun
  · exact .of_isWhole (isWhole_array_map h items)

theorem isWhole_limitsJson {limits : Limits} (hlimits : LimitsFit limits) :
    (limitsJson limits).IsWhole := by
  simp only [LimitsFit, limitPaths, List.forall_mem_cons] at hlimits
  obtain ⟨hdepth, hbytes, hpredicates, hlength, hclauses, -⟩ := hlimits
  rw [limitsJson_eq]
  apply isWhole_sectionJson
  simp only [limitSlots, List.forall_mem_cons]
  exact ⟨.of_isWhole (Json.isWhole_nat hdepth), .of_isWhole (Json.isWhole_nat hbytes),
    .of_isWhole (Json.isWhole_nat hpredicates), .of_isWhole (Json.isWhole_nat hlength),
    .of_isWhole (Json.isWhole_nat hclauses), List.forall_mem_nil _⟩

theorem ArgumentSection.isWhole_toJson (arg : ArgumentSection) : arg.toJson.IsWhole := by
  rw [toJson_eq]
  apply isWhole_sectionJson
  simp only [slots, List.forall_mem_cons]
  exact ⟨.of_isWhole (Json.isWhole_string _), .of_isWhole (Json.isWhole_string _),
    List.forall_mem_nil _⟩

theorem FieldSection.isWhole_toJson (field : FieldSection) : field.toJson.IsWhole := by
  rw [toJson_eq]
  apply isWhole_sectionJson
  simp only [slots, List.forall_mem_cons]
  exact ⟨.of_isWhole (Json.isWhole_string _), isWholeSlot_text _ _, isWholeSlot_text _ _,
    isWholeSlot_text _ _, isWholeSlot_flag _ _, isWholeSlot_flag _ _,
    isWholeSlot_listSlot ArgumentSection.isWhole_toJson _ _, List.forall_mem_nil _⟩

theorem TypeSection.isWhole_toJson (type : TypeSection) : type.toJson.IsWhole := by
  rw [toJson_eq]
  apply isWhole_sectionJson
  simp only [slots, List.forall_mem_cons]
  exact ⟨.of_isWhole (Json.isWhole_string _), .of_isWhole (Json.isWhole_string _),
    isWholeSlot_listSlot Json.isWhole_string _ _, isWholeSlot_listSlot Json.isWhole_string _ _,
    .of_isWhole (isWhole_array_map FieldSection.isWhole_toJson _), List.forall_mem_nil _⟩

theorem EnumSection.isWhole_toJson (enum : EnumSection) : enum.toJson.IsWhole := by
  rw [toJson_eq]
  apply isWhole_sectionJson
  simp only [slots, List.forall_mem_cons]
  exact ⟨.of_isWhole (Json.isWhole_string _),
    .of_isWhole (isWhole_array_map Json.isWhole_string _),
    isWholeSlot_listSlot Json.isWhole_string _ _, List.forall_mem_nil _⟩

theorem SchemaSection.isWhole_toJson (schema : SchemaSection) : schema.toJson.IsWhole := by
  rw [toJson_eq]
  apply isWhole_sectionJson
  simp only [slots, List.forall_mem_cons]
  exact ⟨.of_isWhole (isWhole_array_map Json.isWhole_string _),
    .of_isWhole (isWhole_array_map TypeSection.isWhole_toJson _),
    .of_isWhole (isWhole_array_map EnumSection.isWhole_toJson _), List.forall_mem_nil _⟩

/-- A configuration as a value has no other numbers than its limits. -/
theorem isWhole_toJson {config : Config} (hlimits : LimitsFit config.limits) :
    config.toJson.IsWhole := by
  have hadapter : (sectionJson config.adapter.slots).IsWhole := by
    apply isWhole_sectionJson
    simp only [AdapterSection.slots, List.forall_mem_cons]
    exact ⟨isWholeSlot_text _ _, isWholeSlot_text _ _, List.forall_mem_nil _⟩
  have hlogging : (sectionJson config.logging.slots).IsWhole := by
    apply isWhole_sectionJson
    simp only [LoggingSection.slots, List.forall_mem_cons]
    exact ⟨.of_isWhole (Json.isWhole_string _), List.forall_mem_nil _⟩
  rw [toJson_eq]
  apply isWhole_sectionJson
  simp only [slots, List.forall_mem_cons]
  exact ⟨.of_isWhole hadapter, .of_isWhole (isWhole_limitsJson hlimits), .of_isWhole hlogging,
    .of_isWhole config.schema.isWhole_toJson, List.forall_mem_nil _⟩

/-! ### Texts of configurations -/

/-- A text that is read as the value of a configuration describes the configuration. -/
theorem read_of_read? {config : Config} (hlimits : LimitsFit config.limits) {text : String}
    (htext : Json.read? (jsonOptions text) text = some config.toJson) :
    read .json text = .ok config := by
  have hdocument : Format.read? .json text = some (.ofJson config.toJson) :=
    congrArg (Option.map Document.ofJson) htext
  rw [read, hdocument, Option.bind_some, decode_toJson hlimits]

/-- **A configuration that was written is read back**, from its value and from both forms of its
text. -/
theorem read_toJson (config : Config) (hlimits : LimitsFit config.limits) :
    (∀ format, decode format (.ofJson config.toJson) = some config) ∧
      read .json config.toJson.compact = .ok config ∧
      read .json config.toJson.pretty = .ok config := by
  have hwhole := isWhole_toJson hlimits
  refine ⟨fun format => decode_toJson hlimits, ?_, ?_⟩
  · exact read_of_read? hlimits (Json.read?_compact rfl (Nat.le_refl _) hwhole)
  · exact read_of_read? hlimits (Json.read?_pretty rfl (Nat.le_refl _) hwhole)

/-- So it is with the largest limit, with lists and options that are left out next to some that are
not, and with names that need escapes. -/
theorem read_toJson_sparse :
    let posts : FieldSection :=
      { name := "posts", type := some "[Post!]", sortable := some false
        args := [⟨"first", "Int"⟩] }
    let config : Config :=
      { adapter := { backend := some "sqlite\t\"3\"" }
        limits := { maxInputBytes := 2 ^ 64 - 1, maxListLength := 0 }
        schema :=
          { roots := ["Query"]
            types := [{ name := "Query", fields := [posts] }, { name := "Tag", sort := .union }]
            enums := [{ name := "Größe", operators := ["_eq"] }] } }
    LimitsFit config.limits ∧ decode .toml (.ofJson config.toJson) = some config ∧
      read .json config.toJson.compact = .ok config ∧
      read .json config.toJson.pretty = .ok config := by
  intro posts config
  have hlimits : LimitsFit config.limits := by decide
  obtain ⟨hvalue, htexts⟩ := read_toJson config hlimits
  exact ⟨hlimits, hvalue .toml, htexts⟩

end Criteria.Config
