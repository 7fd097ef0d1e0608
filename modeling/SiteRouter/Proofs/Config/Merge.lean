import SiteRouter.Proofs.Config.Fields

/-!
# Settings over other settings

Settings are merged by entering them over the mapping of the base settings, which has every field.
So a value that is changed among them changes the one field in the result and no report
(`merge_put_freezeOnLoad`), and a field that they do not name stays that of the base settings
(`merge_freezeOnLoad`).
-/

namespace SiteRouter.Config

/-- The name of the setting that closes a registry once it is loaded. -/
def freezeOnLoadName : String := "freeze_on_load"

/-- What decides whether a registry is closed once it is loaded: the setting if it is given, or else
that of the base settings. -/
def freezeOnLoadOver (base : Config) (settings : Mapping) : Value :=
  (settings.get? (.str freezeOnLoadName)).getD base.freezeOnLoad

/-- A value that is entered for the setting is read as that setting, and the others stay. -/
theorem read_put_freezeOnLoad (data : Mapping) (v : Value) :
    read (data.put (.str freezeOnLoadName) v) = { read data with freezeOnLoad := v } := by
  have hother : ∀ name, name ≠ freezeOnLoadName →
      (data.put (.str freezeOnLoadName) v).get? (.str name) = data.get? (.str name) := by
    intro name hname
    exact Mapping.get?_put_of_ne (fun heq => hname (Value.str.inj heq).symm) v
  have hself : (data.put (.str freezeOnLoadName) v).get? (.str "freeze_on_load") = some v :=
    Mapping.get?_put_self data freezeOnLoadName v
  unfold read
  dsimp only
  rw [hother _ (by decide), hother _ (by decide), hother _ (by decide), hother _ (by decide),
    hself, hother _ (by decide)]
  rfl

/-- The mapping of settings has the name of the setting. -/
theorem mem_keys_toMapping (base : Config) : .str freezeOnLoadName ∈ base.toMapping.keys := by
  simp [Mapping.keys, toMapping, fields, freezeOnLoadName]

/-- Changing the setting among settings changes it in what they are merged to, and nothing else. -/
theorem merge_put_freezeOnLoad (base : Config) {settings : Mapping}
    (hkeys : settings.keys.Nodup) (v : Value) :
    base.merge (settings.put (.str freezeOnLoadName) v) =
      (base.merge settings).map fun merged =>
        ({ merged.1 with freezeOnLoad := v }, merged.2) := by
  have hname := mem_keys_toMapping base
  unfold merge ofMapping
  rw [Mapping.putAll_put hname hkeys, Mapping.keys_put_of_mem (Mapping.mem_keys_putAll hname _),
    read_put_freezeOnLoad]
  cases unknownReport _ <;> rfl

/-- The setting that decides is the one that settings are merged to. -/
theorem merge_freezeOnLoad {base : Config} {settings : Mapping} (hkeys : settings.keys.Nodup)
    {merged : Reported} (h : base.merge settings = .ok merged) :
    merged.1.freezeOnLoad = base.freezeOnLoadOver settings := by
  have hname : freezeOnLoadName ∈ fieldNames := by decide
  exact setting_of_merge hkeys h hname

end SiteRouter.Config
