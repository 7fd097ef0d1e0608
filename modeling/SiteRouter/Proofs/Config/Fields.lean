import Mathlib.Data.List.Nodup
import Mathlib.Data.Set.List
import SiteRouter.Config
import SiteRouter.Proofs.Except
import SiteRouter.Proofs.Value.Mapping

/-!
# Settings one by one

Settings are compared name by name: `setting` looks one up, and two settings with the same value for
every name are equal (`eq_of_setting_eq`). A mapping whose keys are texts is never refused, since
texts can be sorted for the report, and each setting is its entry or else the default
(`setting_read`). What is merged over settings changes those that it names (`setting_of_merge`).
-/

namespace SiteRouter

/-! ## Texts in order -/

namespace Value

/-- A text has a place among ordered texts. -/
theorem insertSorted_texts (s : String) (ts : List String) :
    ∃ us : List String, insertSorted (.str s) (ts.map .str) = some (us.map .str) := by
  induction ts with
  | nil => exact ⟨[s], rfl⟩
  | cons t ts ih =>
    obtain ⟨us, hus⟩ := ih
    have hbelow : below? (.str s) (.str t) = some (decide (s < t)) := rfl
    rw [List.map_cons, insertSorted, hbelow, hus]
    cases decide (s < t) with
    | true => exact ⟨s :: t :: ts, rfl⟩
    | false => exact ⟨t :: us, rfl⟩

/-- Texts have an order. -/
theorem sorted?_texts (ts : List String) :
    ∃ us : List String, sorted? (ts.map .str) = some (us.map .str) := by
  suffices h : ∀ acc : List String, ∃ us : List String,
      (ts.map .str).foldlM (fun ws v => insertSorted v ws) (acc.map .str) = some (us.map .str) from
    h []
  induction ts with
  | nil => exact fun acc => ⟨acc, rfl⟩
  | cons t ts ih =>
    intro acc
    obtain ⟨us, hus⟩ := insertSorted_texts t acc
    rw [List.map_cons, List.foldlM_cons, hus]
    exact ih us

/-- Texts are written. -/
theorem areWritable_texts (ts : List String) : areWritable (ts.map .str) = true := by
  rw [areWritable_iff]
  intro v hv
  obtain ⟨t, -, rfl⟩ := List.mem_map.1 hv
  exact isWritable_str t

end Value

/-! ## Mappings whose keys are texts -/

namespace Mapping

/-- The keys of the mapping are texts. -/
def HasTextKeys (m : Mapping) : Prop := ∀ key ∈ m.keys, ∃ name, key = .str name

/-- The keys of a mapping that is made from texts are these. -/
theorem keys_ofStrings (ps : List (String × Value)) :
    (ofStrings ps).keys = (ps.map Prod.fst).map .str := by
  rw [keys, ofStrings, List.map_map, List.map_map]
  rfl

theorem hasTextKeys_ofStrings (ps : List (String × Value)) : (ofStrings ps).HasTextKeys := by
  intro key hkey
  rw [keys_ofStrings] at hkey
  obtain ⟨name, -, rfl⟩ := List.mem_map.1 hkey
  exact ⟨name, rfl⟩

/-- Different texts are different keys. -/
theorem nodup_keys_ofStrings {ps : List (String × Value)} (h : (ps.map Prod.fst).Nodup) :
    (ofStrings ps).keys.Nodup := by
  rw [keys_ofStrings]
  exact h.map fun _ _ => Value.str.inj

theorem HasTextKeys.putAll {m entries : Mapping} (hm : m.HasTextKeys)
    (hentries : entries.HasTextKeys) : (m.putAll entries).HasTextKeys := by
  intro key hkey
  obtain hold | hnew := mem_keys_of_mem_putAll hkey
  · exact hm key hold
  · exact hentries key hnew

end Mapping

namespace Config

/-! ## Settings by name -/

/-- What is found for a key stands beside it. -/
theorem mem_of_lookup {α : Type} {ps : List (String × α)} {key : String} {v : α}
    (h : ps.lookup key = some v) : (key, v) ∈ ps := by
  obtain ⟨before, after, rfl, -⟩ := List.lookup_eq_some_iff.1 h
  exact List.mem_append_right _ List.mem_cons_self

/-- The setting of a name. -/
def setting (c : Config) (name : String) : Value := (c.fields.lookup name).getD .null

/-- The names of the settings are different. -/
theorem fieldNames_nodup : fieldNames.Nodup := by decide

/-- What holds of each setting holds of all. -/
theorem forall_fieldNames {P : String → Prop} :
    (∀ name ∈ fieldNames, P name) ↔ P "app_domain" ∧ P "clubs_prefix" ∧ P "case_sensitive" ∧
      P "strict" ∧ P "freeze_on_load" ∧ P "log_level" := by
  simp [fieldNames, fields]

/-- Settings are equal if each of them is. -/
theorem eq_of_setting_eq {c c' : Config}
    (h : ∀ name ∈ fieldNames, c.setting name = c'.setting name) : c = c' := by
  obtain ⟨happ, hclubs, hcase, hstrict, hfreeze, hlog⟩ := forall_fieldNames.1 h
  cases c
  cases c'
  exact Config.mk.injEq .. ▸ ⟨happ, hclubs, hcase, hstrict, hfreeze, hlog⟩

/-- A name stands beside its setting. -/
theorem mem_fields (c : Config) {name : String} (h : name ∈ fieldNames) :
    (name, c.setting name) ∈ c.fields := by
  have hlookup : ∀ name ∈ fieldNames, c.fields.lookup name = some (c.setting name) := by
    rw [forall_fieldNames]
    exact ⟨rfl, rfl, rfl, rfl, rfl, rfl⟩
  exact mem_of_lookup (hlookup name h)

/-- A setting is found in the mapping of the settings. -/
theorem get?_toMapping (c : Config) {name : String} (h : name ∈ fieldNames) :
    c.toMapping.get? (.str name) = some (c.setting name) := by
  have hnodup : (c.fields.map Prod.fst).Nodup := fieldNames_nodup
  exact Mapping.get?_ofStrings_of_mem hnodup (c.mem_fields h)

/-- A setting that is read is the entry of its name, or else the default. -/
theorem setting_read (data : Mapping) {name : String} (h : name ∈ fieldNames) :
    (read data).setting name = (data.get? (.str name)).getD (({} : Config).setting name) := by
  revert name
  rw [forall_fieldNames]
  exact ⟨rfl, rfl, rfl, rfl, rfl, rfl⟩

/-! ## Mappings over settings -/

/-- A mapping whose keys are texts is read. -/
theorem exists_ofMapping {data : Mapping} (h : data.HasTextKeys) :
    ∃ reports, ofMapping data = .ok (read data, reports) := by
  -- Only sorting the keys that are no names of settings could fail, and these are texts too.
  obtain ⟨unknown, hunknown⟩ :
      data.keys.filter (!isField ·) ∈ Set.range (List.map Value.str) := by
    rw [Set.range_list_map]
    intro key hkey
    obtain ⟨name, rfl⟩ := h key (List.mem_filter.1 hkey).1
    exact ⟨name, rfl⟩
  rw [ofMapping, ← hunknown]
  cases unknown with
  | nil => exact ⟨[], rfl⟩
  | cons name unknown =>
    obtain ⟨sorted, hsorted⟩ := Value.sorted?_texts (name :: unknown)
    rw [List.map_cons] at hsorted ⊢
    rw [unknownReport, hsorted]
    · dsimp only
      rw [Value.areWritable_texts, Bool.not_true, if_neg Bool.false_ne_true]
      exact ⟨_, rfl⟩
    · exact List.cons_ne_nil _ _

/-- A mapping that is merged over settings changes those that it names. -/
theorem setting_of_merge {c : Config} {other : Mapping} (hkeys : other.keys.Nodup)
    {merged : Reported} (h : c.merge other = .ok merged) {name : String}
    (hname : name ∈ fieldNames) :
    merged.1.setting name = (other.get? (.str name)).getD (c.setting name) := by
  obtain ⟨reports, -, rfl⟩ := map_eq_ok.1 h
  rw [setting_read _ hname, Mapping.get?_putAll _ hkeys, c.get?_toMapping hname]
  cases other.get? (.str name) <;> rfl

/-- A mapping whose keys are texts can be merged over settings. -/
theorem exists_merge (c : Config) {other : Mapping} (h : other.HasTextKeys) :
    ∃ merged, c.merge other = .ok merged := by
  have hbase : c.toMapping.HasTextKeys := Mapping.hasTextKeys_ofStrings c.fields
  obtain ⟨reports, hread⟩ := exists_ofMapping (hbase.putAll h)
  exact ⟨_, hread⟩

end Config

end SiteRouter
