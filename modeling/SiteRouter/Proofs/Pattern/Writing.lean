import SiteRouter.Pattern.Compiled
import SiteRouter.Proofs.Except

/-!
# What a pattern writes

Each value is checked as it is put in its place. There are five ways in which a capture writes
something, and `Compiled.Writes` names them; every other value is a fault (`writeCapture_eq_ok`). A
path is what the steps write one after the other (`writeSteps_cons_eq_ok`, `toPath_eq_ok`), and
there is one where every capture writes something (`exists_writeSteps_map_iff`); otherwise the first
capture that does not decides the fault (`writeSteps_map_eq_error`).
-/

namespace SiteRouter

/-- Whether the value is neither nothing nor a sequence. -/
def Value.IsSingle (v : Value) : Prop := v.isNull = false ∧ v.sequence? = none

/-- Whether the value has a text, and the text has characters. -/
def Value.HasText (v : Value) : Prop := ∃ t, v.stringify = .ok t ∧ t ≠ ""

/-- A value has a text with characters if it is written as one. -/
theorem Value.hasText_iff {v : Value} : v.HasText ↔ v.isWritable = true ∧ v.text ≠ "" := by
  unfold HasText stringify
  cases v.isWritable <;> simp

end SiteRouter

namespace SiteRouter.Pattern.Compiled

variable {p : Compiled} {c : Capture} {segment : Regex} {v : Value} {text : List Char}

/-! ## One capture -/

/-- The ways in which a capture writes a text for a value. -/
inductive Writes (p : Compiled) (c : Capture) (segment : Regex) (v : Value) : List Char → Prop
  /-- Without a value a capture may be left out, but for a lead that its segment keeps. -/
  | absent : v.isNull = true → c.modifier.isOptional = true →
    Writes p c segment v (if c.shared then c.leadText else [])
  /-- A capture without a name that may read nothing is left out with its lead. -/
  | nothing : v.isNull = true → c.modifier.isOptional = false → c.isNamed = false →
    segment.matchesAll p.ignoreCase [] = true → Writes p c segment v []
  /-- A sequence without elements is left out with the lead, where a capture may be left out. -/
  | empty : v.isNull = false → v.sequence? = some [] → c.modifier.isRepeated = true →
    c.modifier.isOptional = true → Writes p c segment v []
  /-- Written elements of a sequence stand behind the lead, with the delimiter between them. -/
  | elements {item : Value} {items : List Value} : v.isNull = false →
    v.sequence? = some (item :: items) → c.modifier.isRepeated = true →
    (∀ i ∈ item :: items, segment.matchesAll p.ignoreCase (encodeElement i) = true) →
    (∀ i ∈ item :: items, i.isWritable = true) →
    Writes p c segment v
      (c.leadText ++ (encodeElement item ++ items.flatMap fun i => c.delimiter :: encodeElement i))
  /-- Any other value that is written stands behind the lead. -/
  | single : v.isNull = false → v.sequence? = none →
    segment.matchesAll p.ignoreCase (encodeValue c v) = true → v.isWritable = true →
    Writes p c segment v (c.leadText ++ encodeValue c v)

/-- An element is written if it has a text that the capture may read, and so are those after it. -/
theorem writeElements_cons_eq_ok {lead : List Char} {items : List Value} :
    p.writeElements c segment lead (v :: items) = .ok text ↔
      segment.matchesAll p.ignoreCase (encodeElement v) = true ∧ v.isWritable = true ∧
        ∃ rest, p.writeElements c segment [c.delimiter] items = .ok rest ∧
          text = lead ++ encodeElement v ++ rest := by
  rw [writeElements]
  cases hwritable : v.isWritable with
  | false => simp
  | true =>
    rw [Bool.not_true, if_neg Bool.false_ne_true]
    split
    · next hv =>
      rw [map_eq_ok]
      constructor
      · rintro ⟨rest, hrest, rfl⟩
        exact ⟨hv, rfl, rest, hrest, rfl⟩
      · rintro ⟨-, -, rest, hrest, rfl⟩
        exact ⟨rest, hrest, rfl⟩
    · next hv => exact ⟨nofun, fun h => absurd h.1 hv⟩

/-- Elements are written if each has a text that the capture may read. -/
theorem writeElements_eq_ok {lead : List Char} {items : List Value} :
    p.writeElements c segment lead (v :: items) = .ok text ↔
      (∀ i ∈ v :: items, segment.matchesAll p.ignoreCase (encodeElement i) = true) ∧
        (∀ i ∈ v :: items, i.isWritable = true) ∧
        text = lead ++ (encodeElement v ++ items.flatMap fun i => c.delimiter :: encodeElement i) := by
  induction items generalizing lead v text with
  | nil =>
    rw [writeElements_cons_eq_ok, List.forall_mem_singleton, List.forall_mem_singleton]
    simp [writeElements]
  | cons w items ih =>
    rw [writeElements_cons_eq_ok]
    simp only [ih]
    constructor
    · rintro ⟨hv, hwritable, _, ⟨hitems, hwritables, rfl⟩, rfl⟩
      exact ⟨List.forall_mem_cons.2 ⟨hv, hitems⟩, List.forall_mem_cons.2 ⟨hwritable, hwritables⟩,
        by simp⟩
    · rintro ⟨hitems, hwritables, rfl⟩
      obtain ⟨hv, hitems⟩ := List.forall_mem_cons.1 hitems
      obtain ⟨hwritable, hwritables⟩ := List.forall_mem_cons.1 hwritables
      exact ⟨hv, hwritable, _, ⟨hitems, hwritables, rfl⟩, by simp⟩

/-- What is written without a value. -/
theorem writes_of_null (hnull : v.isNull = true) (h : p.writeCapture c segment v = .ok text) :
    p.Writes c segment v text := by
  rw [writeCapture, if_pos hnull] at h
  split at h
  · next hoptional =>
    cases h
    exact .absent hnull hoptional
  · next hoptional =>
    split at h
    · next hempty =>
      cases h
      rw [Bool.and_eq_true, Bool.not_eq_true'] at hempty
      exact .nothing hnull (Bool.eq_false_iff.2 hoptional) hempty.1 hempty.2
    · cases h

/-- What is written for a sequence. -/
theorem writes_of_sequence (hnull : v.isNull = false) {items : List Value}
    (hitems : v.sequence? = some items) (h : p.writeCapture c segment v = .ok text) :
    p.Writes c segment v text := by
  rw [writeCapture, hnull, if_neg Bool.false_ne_true, hitems] at h
  dsimp only at h
  split at h
  · cases h
  · next hrepeated =>
    rw [Bool.not_eq_true, Bool.not_eq_false'] at hrepeated
    cases items with
    | nil =>
      rw [if_pos List.isEmpty_nil] at h
      split at h
      · next hoptional =>
        cases h
        exact .empty hnull hitems hrepeated hoptional
      · cases h
    | cons item items =>
      obtain ⟨hmatches, hwritable, rfl⟩ := writeElements_eq_ok.1 h
      exact .elements hnull hitems hrepeated hmatches hwritable

/-- What is written for any other value. -/
theorem writes_of_single (hnull : v.isNull = false) (hitems : v.sequence? = none)
    (h : p.writeCapture c segment v = .ok text) : p.Writes c segment v text := by
  rw [writeCapture, hnull, if_neg Bool.false_ne_true, hitems] at h
  dsimp only at h
  split at h
  · cases h
  · next hwritable =>
    rw [Bool.not_eq_true, Bool.not_eq_false'] at hwritable
    split at h
    · next hmatches =>
      cases h
      exact .single hnull hitems hmatches hwritable
    · cases h

/-- What a capture writes, it writes in one of these ways. -/
theorem writeCapture_eq_ok :
    p.writeCapture c segment v = .ok text ↔ p.Writes c segment v text := by
  constructor
  · intro h
    cases hnull : v.isNull with
    | true => exact writes_of_null hnull h
    | false =>
      cases hitems : v.sequence? with
      | none => exact writes_of_single hnull hitems h
      | some items => exact writes_of_sequence hnull hitems h
  · intro h
    cases h with
    | absent hnull hoptional => simp [writeCapture, hnull, hoptional]
    | nothing hnull hoptional hnamed hempty => simp [writeCapture, hnull, hoptional, hnamed, hempty]
    | empty hnull hitems hrepeated hoptional =>
      simp [writeCapture, hnull, hitems, hrepeated, hoptional]
    | elements hnull hitems hrepeated hmatches hwritable =>
      simpa [writeCapture, hnull, hitems, hrepeated] using
        writeElements_eq_ok.2 ⟨hmatches, hwritable, rfl⟩
    | single hnull hitems hmatches hwritable =>
      simp [writeCapture, hnull, hitems, hmatches, hwritable]

/-- A parameter that takes one value writes it behind its lead, and nothing else. -/
theorem writes_once_iff (hnamed : c.isNamed = true) (honce : c.modifier = .once) :
    p.Writes c segment v text ↔ v.IsSingle ∧ v.isWritable = true ∧
      segment.matchesAll p.ignoreCase (encodeValue c v) = true ∧
      text = c.leadText ++ encodeValue c v := by
  constructor
  · intro h
    cases h with
    | absent hnull hoptional =>
      rw [honce] at hoptional
      cases hoptional
    | nothing hnull hoptional hunnamed => cases hnamed.symm.trans hunnamed
    | empty hnull hitems hrepeated =>
      rw [honce] at hrepeated
      cases hrepeated
    | elements hnull hitems hrepeated =>
      rw [honce] at hrepeated
      cases hrepeated
    | single hnull hitems hmatches hwritable => exact ⟨⟨hnull, hitems⟩, hwritable, hmatches, rfl⟩
  · rintro ⟨⟨hnull, hitems⟩, hwritable, hmatches, rfl⟩
    exact .single hnull hitems hmatches hwritable

/-- A parameter that takes one value writes it if it has a text that the parameter may read. -/
theorem exists_writeCapture_once (hnamed : c.isNamed = true) (honce : c.modifier = .once) :
    (∃ text, p.writeCapture c segment v = .ok text) ↔
      v.IsSingle ∧ v.isWritable = true ∧
        segment.matchesAll p.ignoreCase (encodeValue c v) = true := by
  simp only [writeCapture_eq_ok, writes_once_iff hnamed honce]
  exact ⟨fun ⟨_, hv, hwritable, hmatches, _⟩ => ⟨hv, hwritable, hmatches⟩,
    fun ⟨hv, hwritable, hmatches⟩ => ⟨_, hv, hwritable, hmatches, rfl⟩⟩

/-- Without a value a capture that may be left out writes the lead that its segment keeps. -/
theorem writeCapture_null (segment : Regex) (h : c.modifier.isOptional = true) :
    p.writeCapture c segment .null = .ok (if c.shared then c.leadText else []) :=
  writeCapture_eq_ok.2 (.absent rfl h)

/-- For an empty sequence a capture of any number of values writes nothing. -/
theorem writeCapture_empty (segment : Regex) (h : c.modifier = .optionalRepeated)
    (hv : v.sequence? = some []) : p.writeCapture c segment v = .ok [] := by
  have hnull : v.isNull = false := by
    cases v with
    | null => cases hv
    | _ => rfl
  refine writeCapture_eq_ok.2 (.empty hnull hv ?_ ?_) <;> rw [h] <;> rfl

/-! ## Steps in turn -/

variable {params : Mapping}

/-- Steps write their texts one after the other. -/
theorem writeSteps_cons_eq_ok {s : Step} {ss : List Step} {w : List Char} :
    p.writeSteps params (s :: ss) = .ok w ↔
      ∃ u u', p.writeStep params s = .ok u ∧ p.writeSteps params ss = .ok u' ∧ w = u ++ u' := by
  have hbind : p.writeSteps params (s :: ss) = (p.writeStep params s).bind fun u =>
      (p.writeSteps params ss).bind fun u' => .ok (u ++ u') := rfl
  simp only [hbind, bind_eq_ok, Except.ok.injEq]
  constructor
  · rintro ⟨u, hu, u', hu', rfl⟩
    exact ⟨u, u', hu, hu', rfl⟩
  · rintro ⟨u, u', hu, hu', rfl⟩
    exact ⟨u, hu, u', hu', rfl⟩

/-- A literal writes itself. -/
theorem writeSteps_literal_eq_ok {t w : List Char} {ss : List Step} :
    p.writeSteps params (.literal t :: ss) = .ok w ↔
      ∃ w', p.writeSteps params ss = .ok w' ∧ w = t ++ w' := by
  rw [writeSteps_cons_eq_ok]
  constructor
  · rintro ⟨_, w', ⟨⟩, hw', rfl⟩
    exact ⟨w', hw', rfl⟩
  · rintro ⟨w', hw', rfl⟩
    exact ⟨t, w', rfl, hw', rfl⟩

/-- Steps of tokens write a text if each capture does. -/
theorem exists_writeSteps_map_iff {step : Token → Step}
    (hliteral : ∀ t, step (.literal t) = .literal t) {ts : List Token} :
    (∃ w, p.writeSteps params (ts.map step) = .ok w) ↔
      ∀ c ∈ Pattern.captures ts, ∃ text, p.writeStep params (step (.capture c)) = .ok text := by
  induction ts with
  | nil => exact ⟨fun _ => nofun, fun _ => ⟨[], rfl⟩⟩
  | cons t ts ih =>
    rw [List.map_cons]
    cases t with
    | literal t =>
      show _ ↔ ∀ c ∈ Pattern.captures ts, _
      rw [← ih, hliteral]
      simp only [writeSteps_literal_eq_ok]
      exact ⟨fun ⟨_, w, hw, _⟩ => ⟨w, hw⟩, fun ⟨w, hw⟩ => ⟨_, w, hw, rfl⟩⟩
    | capture c =>
      show _ ↔ ∀ c' ∈ c :: Pattern.captures ts, _
      rw [List.forall_mem_cons, ← ih]
      simp only [writeSteps_cons_eq_ok]
      exact ⟨fun ⟨_, u, w, hu, hw, _⟩ => ⟨⟨u, hu⟩, w, hw⟩,
        fun ⟨⟨u, hu⟩, w, hw⟩ => ⟨_, u, w, hu, hw, rfl⟩⟩

/-- Steps write the same where the captures have the same values. -/
theorem writeSteps_congr {params' : Mapping} {ss : List Step}
    (h : ∀ c segment, Step.capture c segment ∈ ss →
      params.getD c.key.toValue = params'.getD c.key.toValue) :
    p.writeSteps params ss = p.writeSteps params' ss := by
  induction ss with
  | nil => rfl
  | cons s ss ih =>
    have hfirst : p.writeStep params s = p.writeStep params' s := by
      cases s with
      | literal t => rfl
      | capture c segment =>
        rw [writeStep, writeStep, h c segment List.mem_cons_self]
    rw [writeSteps, writeSteps, hfirst,
      ih fun c segment hmem => h c segment (List.mem_cons_of_mem _ hmem)]

/-- Steps in two parts are written one part after the other. -/
theorem writeSteps_append (ss ss' : List Step) :
    p.writeSteps params (ss ++ ss') =
      (p.writeSteps params ss).bind fun a => (p.writeSteps params ss').map (a ++ ·) := by
  induction ss with
  | nil =>
    show p.writeSteps params ss' = (p.writeSteps params ss').map ([] ++ ·)
    cases p.writeSteps params ss' <;> rfl
  | cons s ss ih =>
    show (p.writeStep params s).bind _ = ((p.writeStep params s).bind _).bind _
    cases p.writeStep params s with
    | error f => rfl
    | ok u =>
      show (p.writeSteps params (ss ++ ss')).bind _ = ((p.writeSteps params ss).bind _).bind _
      rw [ih]
      cases p.writeSteps params ss with
      | error f => rfl
      | ok a =>
        cases p.writeSteps params ss' with
        | error f => rfl
        | ok b => exact congrArg Except.ok (List.append_assoc u a b).symm

/-- What a capture writes stands between what the steps before and after it write. -/
theorem writeSteps_around {init rest : List Step} {c : Capture} {segment : Regex} {x : List Char}
    (hx : p.writeCapture c segment (params.getD c.key.toValue) = .ok x) :
    p.writeSteps params (init ++ .capture c segment :: rest) =
      (p.writeSteps params init).bind fun a =>
        (p.writeSteps params rest).map fun b => a ++ (x ++ b) := by
  have hcapture : p.writeSteps params (.capture c segment :: rest) =
      (p.writeSteps params rest).map (x ++ ·) := by
    show (p.writeCapture c segment (params.getD c.key.toValue)).bind _ = _
    rw [hx]
    show (p.writeSteps params rest).bind _ = _
    cases p.writeSteps params rest <;> rfl
  rw [writeSteps_append, hcapture]
  cases p.writeSteps params init with
  | error f => rfl
  | ok a =>
    show Except.map _ (Except.map _ _) = Except.map _ _
    cases p.writeSteps params rest <;> rfl

/-- The path is what the steps write. -/
theorem toPath_eq_ok {path : String} :
    p.toPath params = .ok path ↔ p.writeSteps params p.steps = .ok path.toList := by
  rw [toPath, map_eq_ok]
  constructor
  · rintro ⟨w, hw, rfl⟩
    rwa [String.toList_ofList]
  · intro hw
    exact ⟨_, hw, String.ofList_toList⟩

/-- There is a path where the steps write something. -/
theorem exists_toPath_iff :
    (∃ path, p.toPath params = .ok path) ↔ ∃ w, p.writeSteps params p.steps = .ok w := by
  simp only [toPath_eq_ok]
  exact ⟨fun ⟨path, h⟩ => ⟨_, h⟩, fun ⟨w, h⟩ => ⟨String.ofList w, by rwa [String.toList_ofList]⟩⟩

end SiteRouter.Pattern.Compiled
