import SiteRouter.Proofs.Pattern.Program
import SiteRouter.Proofs.Pattern.Tokens
import SiteRouter.Proofs.Pattern.Writing
import SiteRouter.Proofs.Text.Percent
import SiteRouter.Proofs.Url.Query

/-!
# The characters that a pattern writes

A value is escaped before it is put into a path. So a mark that both codecs escape comes into a path
from the literals of the pattern alone (`Compiled.not_mem_toPath`), and a slash also from the leads
and delimiters, and from the value of a star. How many slashes a capture writes depends on the shape
of its value: whether there is one, and how many elements it has (`Compiled.Writes.count_slash`).
Values of the same shapes therefore make paths with equally many segments
(`Compiled.count_slash_toPath`).
-/

namespace SiteRouter

open Text (Percent.encodeChars Percent.not_mem_encodeChars)

/-- Both values are missing, or both are sequences of the same length, or neither is a sequence. -/
def Value.SameShape (v v' : Value) : Prop :=
  v.isNull = v'.isNull ∧ v.sequence?.map List.length = v'.sequence?.map List.length

namespace Pattern

/-! ## The steps of a compiled pattern -/

/-- The steps of tokens have these tokens. -/
theorem map_token_of_toSteps [CharacterNames] {pattern : String} {ts : List Token} {ss : List Step}
    (h : toSteps pattern ts = .ok ss) : ss.map Step.token = ts := by
  induction ts generalizing ss with
  | nil =>
    cases h
    rfl
  | cons t ts ih =>
    obtain ⟨s, hs, h⟩ := bind_eq_ok.1 h
    obtain ⟨ss', hss', h⟩ := bind_eq_ok.1 h
    cases h
    have htoken : s.token = t := by
      cases t with
      | literal text =>
        cases hs
        rfl
      | capture c =>
        obtain ⟨program, -, rfl⟩ := map_eq_ok.1 hs
        rfl
    rw [List.map_cons, htoken, ih hss']

/-- A compiled pattern has the steps of its tokens, and these are as they should be. -/
theorem compile_tokens [CharacterNames] {pattern : String} {o : Options} {p : Compiled}
    (h : compile pattern o = .ok p) :
    p.tokens = p.steps.map Step.token ∧ ∀ s ∈ p.steps, s.token.WellFormed := by
  have hmade := Compiled.madeFrom h
  have hwell := parse_wellFormed hmade.tokens
  have hmap := map_token_of_toSteps hmade.steps
  refine ⟨hmap.symm, ?_⟩
  intro s hs
  refine hwell s.token ?_
  rw [← hmap]
  exact List.mem_map_of_mem hs

/-- A capture of a compiled pattern is one of its steps. -/
theorem exists_step_of_mem_captures [CharacterNames] {pattern : String} {o : Options} {p : Compiled}
    (hp : compile pattern o = .ok p) {c : Capture} (hc : c ∈ p.captures) :
    ∃ segment, Step.capture c segment ∈ p.steps := by
  obtain ⟨t, ht, hcapture⟩ := List.mem_filterMap.1 hc
  rw [(compile_tokens hp).1] at ht
  obtain ⟨s, hs, rfl⟩ := List.mem_map.1 ht
  cases s with
  | literal text => cases hcapture
  | capture c' segment =>
    cases hcapture
    exact ⟨segment, hs⟩

/-- The captures of a compiled pattern are as they should be. -/
theorem wellFormed_of_mem_captures [CharacterNames] {pattern : String} {o : Options} {p : Compiled}
    (hp : compile pattern o = .ok p) {c : Capture} (hc : c ∈ p.captures) : c.WellFormed := by
  obtain ⟨segment, hmem⟩ := exists_step_of_mem_captures hp hc
  exact (compile_tokens hp).2 _ hmem

/-! ## Marks -/

/-- Both codecs escape the character, and no capture writes it of its own. -/
structure IsEscaped (x : Char) : Prop where
  /-- It is none of the leads and delimiters. -/
  lead : x ≠ '/' ∧ x ≠ '.'
  /-- It is not in a value, whatever the codec. -/
  value : ∀ t, x ∉ Percent.encodeChars componentSafe t ∧ x ∉ Percent.encodeChars starSafe t

theorem isEscaped_question : IsEscaped '?' := by
  refine ⟨by decide, fun t => ⟨?_, ?_⟩⟩
  · exact Percent.not_mem_encodeChars (by decide) (by decide) (by decide) t
  · exact Percent.not_mem_encodeChars (by decide) (by decide) (by decide) t

theorem isEscaped_hash : IsEscaped '#' := by
  refine ⟨by decide, fun t => ⟨?_, ?_⟩⟩
  · exact Percent.not_mem_encodeChars (by decide) (by decide) (by decide) t
  · exact Percent.not_mem_encodeChars (by decide) (by decide) (by decide) t

theorem IsEscaped.not_mem_leadText {x : Char} (hx : IsEscaped x) {c : Capture}
    (h : IsLead c.lead) : x ∉ c.leadText := by
  intro hmem
  rcases h x (Option.mem_toList.1 hmem) with heq | heq
  · exact hx.lead.1 heq
  · exact hx.lead.2 heq

/-- A capture writes no mark that is escaped. -/
theorem Compiled.Writes.not_mem {p : Compiled} {c : Capture} {segment : Regex} {v : Value}
    {text : List Char} {x : Char} (h : p.Writes c segment v text) (hx : IsEscaped x)
    (hlead : IsLead c.lead) : x ∉ text := by
  have hleadText := hx.not_mem_leadText hlead
  have helement : ∀ i, x ∉ encodeElement i := fun i => (hx.value i.text.toList).1
  have hdelimiter : x ≠ c.delimiter := by
    rcases hlead.delimiter with heq | heq
    · rw [heq]
      exact hx.lead.1
    · rw [heq]
      exact hx.lead.2
  cases h with
  | absent =>
    split
    · exact hleadText
    · exact List.not_mem_nil
  | nothing => exact List.not_mem_nil
  | empty => exact List.not_mem_nil
  | elements =>
    rw [List.mem_append, List.mem_append, not_or, not_or]
    refine ⟨hleadText, helement _, ?_⟩
    intro hmem
    obtain ⟨i, -, hmem⟩ := List.mem_flatMap.1 hmem
    rcases List.mem_cons.1 hmem with heq | hmem
    · exact hdelimiter heq
    · exact helement i hmem
  | single =>
    rw [List.mem_append, not_or]
    refine ⟨hleadText, ?_⟩
    unfold encodeValue
    split
    · exact (hx.value _).2
    · exact (hx.value _).1

/-- A mark that is escaped comes into a path from the literals alone. -/
theorem Compiled.not_mem_toPath [CharacterNames] {pattern : String} {o : Options} {p : Compiled}
    (hp : compile pattern o = .ok p) {x : Char} (hx : IsEscaped x)
    (hliterals : ∀ t, .literal t ∈ p.tokens → x ∉ t) {params : Mapping} {path : String}
    (hpath : p.toPath params = .ok path) : x ∉ path.toList := by
  obtain ⟨htokens, hwell⟩ := compile_tokens hp
  rw [htokens] at hliterals
  have hwritten := toPath_eq_ok.1 hpath
  generalize p.steps = ss at hliterals hwell hwritten
  generalize path.toList = w at hwritten
  induction ss generalizing w with
  | nil =>
    cases hwritten
    exact List.not_mem_nil
  | cons s ss ih =>
    rw [List.forall_mem_cons] at hwell
    obtain ⟨u, u', hu, hu', rfl⟩ := writeSteps_cons_eq_ok.1 hwritten
    have hrest : x ∉ u' := ih (fun t ht => hliterals t (List.mem_cons_of_mem _ ht)) hwell.2 u' hu'
    have hfirst : x ∉ u := by
      cases s with
      | literal t =>
        obtain rfl : t = u := Except.ok.inj hu
        exact hliterals t List.mem_cons_self
      | capture c segment =>
        exact (writeCapture_eq_ok.1 hu).not_mem hx (Capture.WellFormed.lead hwell.1)
    rw [List.mem_append, not_or]
    exact ⟨hfirst, hrest⟩

/-! ## Slashes -/

/-- The number of slashes that a capture writes for a value. -/
def Capture.slashes (c : Capture) (v : Value) : Nat :=
  if v.isNull then if c.modifier.isOptional && c.shared then c.leadText.count '/' else 0
  else
    match v.sequence? with
    | some [] => 0
    | some (_ :: items) => c.leadText.count '/' + items.length * [c.delimiter].count '/'
    | none => c.leadText.count '/' + (Compiled.encodeValue c v).count '/'

/-- No slash of a component is left in it. -/
theorem count_slash_component (t : List Char) :
    (Percent.encodeChars componentSafe t).count '/' = 0 :=
  List.count_eq_zero.2 (Percent.not_mem_encodeChars (by decide) (by decide) (by decide) t)

/-- Elements behind their delimiters have the slashes of these. -/
theorem count_slash_elements (x : Char) (items : List Value) :
    (items.flatMap fun i => x :: Compiled.encodeElement i).count '/'
      = items.length * [x].count '/' := by
  induction items with
  | nil => simp
  | cons i items ih =>
    have hone : (x :: Compiled.encodeElement i).count '/' = [x].count '/' := by
      rw [← List.singleton_append, List.count_append, Compiled.encodeElement,
        count_slash_component, Nat.add_zero]
    rw [List.flatMap_cons, List.count_append, ih, hone, List.length_cons, Nat.succ_mul,
      Nat.add_comm]

/-- A capture writes the slashes that the shape of its value asks for. -/
theorem Compiled.Writes.count_slash {p : Compiled} {c : Capture} {segment : Regex} {v : Value}
    {text : List Char} (h : p.Writes c segment v text) : text.count '/' = c.slashes v := by
  unfold Capture.slashes
  cases h with
  | absent hnull hoptional =>
    rw [if_pos hnull, hoptional, Bool.true_and]
    split <;> rfl
  | nothing hnull hoptional =>
    rw [if_pos hnull, hoptional, Bool.false_and, if_neg Bool.false_ne_true]
    rfl
  | empty hnull hitems =>
    rw [hnull, if_neg Bool.false_ne_true, hitems]
    rfl
  | @elements item items hnull hitems =>
    rw [hnull, if_neg Bool.false_ne_true, hitems]
    dsimp only
    calc (c.leadText ++ (encodeElement item ++
          items.flatMap fun i => c.delimiter :: encodeElement i)).count '/'
        = c.leadText.count '/' + ((encodeElement item).count '/' +
            (items.flatMap fun i => c.delimiter :: encodeElement i).count '/') := by
          rw [List.count_append, List.count_append]
      _ = c.leadText.count '/' + (0 + items.length * [c.delimiter].count '/') := by
          rw [count_slash_elements, encodeElement, count_slash_component]
      _ = c.leadText.count '/' + items.length * [c.delimiter].count '/' := by
          rw [Nat.zero_add]
  | single hnull hitems =>
    rw [hnull, if_neg Bool.false_ne_true, hitems]
    dsimp only
    rw [List.count_append]

/-- The shape of a value decides how many slashes are written for it, but for a star. -/
theorem Capture.slashes_congr {c : Capture} {v v' : Value} (hshape : v.SameShape v')
    (hstar : c.isStar = true → v = v') : c.slashes v = c.slashes v' := by
  obtain ⟨hnull, hlength⟩ := hshape
  cases hbody : c.isStar with
  | true => rw [hstar hbody]
  | false =>
    have hvalue : ∀ w, (Compiled.encodeValue c w).count '/' = 0 := by
      intro w
      unfold Compiled.encodeValue
      rw [hbody, if_neg Bool.false_ne_true]
      exact count_slash_component _
    unfold Capture.slashes
    rw [hnull, hvalue, hvalue]
    -- Both values are sequences of one length, or neither is a sequence.
    cases hitems : v.sequence? with
    | none =>
      rw [hitems] at hlength
      rw [Option.map_eq_none_iff.1 hlength.symm]
    | some items =>
      rw [hitems] at hlength
      obtain ⟨items', hitems', hsame⟩ := Option.map_eq_some_iff.1 hlength.symm
      rw [hitems']
      cases items with
      | nil =>
        obtain rfl := List.length_eq_zero_iff.1 hsame
        rfl
      | cons i items =>
        cases items' with
        | nil => cases hsame
        | cons i' items' =>
          have hrest : items'.length = items.length := Nat.succ.inj hsame
          dsimp only
          rw [hrest]

/-- For each capture the values have the same shape, and for a star they are the same. -/
def Compiled.SameShapes (p : Compiled) (params params' : Mapping) : Prop :=
  ∀ c ∈ p.captures, (params.getD c.key.toValue).SameShape (params'.getD c.key.toValue) ∧
    (c.isStar = true → params.getD c.key.toValue = params'.getD c.key.toValue)

/-- Steps write equally many slashes for values of the same shapes. -/
theorem Compiled.count_slash_writeSteps {p : Compiled} {params params' : Mapping} {ss : List Step}
    (h : ∀ c segment, Step.capture c segment ∈ ss →
      c.slashes (params.getD c.key.toValue) = c.slashes (params'.getD c.key.toValue))
    {w w' : List Char} (hw : p.writeSteps params ss = .ok w)
    (hw' : p.writeSteps params' ss = .ok w') : w.count '/' = w'.count '/' := by
  induction ss generalizing w w' with
  | nil =>
    cases hw
    cases hw'
    rfl
  | cons s ss ih =>
    obtain ⟨u, v, hu, hv, rfl⟩ := writeSteps_cons_eq_ok.1 hw
    obtain ⟨u', v', hu', hv', rfl⟩ := writeSteps_cons_eq_ok.1 hw'
    have hrest : v.count '/' = v'.count '/' :=
      ih (fun c segment hmem => h c segment (List.mem_cons_of_mem _ hmem)) hv hv'
    have hfirst : u.count '/' = u'.count '/' := by
      cases s with
      | literal t =>
        cases hu
        cases hu'
        rfl
      | capture c segment =>
        calc u.count '/'
            = c.slashes (params.getD c.key.toValue) := (writeCapture_eq_ok.1 hu).count_slash
          _ = c.slashes (params'.getD c.key.toValue) := h c segment List.mem_cons_self
          _ = u'.count '/' := (writeCapture_eq_ok.1 hu').count_slash.symm
    rw [List.count_append, List.count_append, hfirst, hrest]

/-- Paths of the same pattern for values of the same shapes have equally many slashes. -/
theorem Compiled.count_slash_toPath [CharacterNames] {pattern : String} {o : Options} {p : Compiled}
    (hp : compile pattern o = .ok p) {params params' : Mapping} (h : p.SameShapes params params')
    {path path' : String} (hpath : p.toPath params = .ok path)
    (hpath' : p.toPath params' = .ok path') :
    path.toList.count '/' = path'.toList.count '/' := by
  refine count_slash_writeSteps ?_ (toPath_eq_ok.1 hpath) (toPath_eq_ok.1 hpath')
  intro c segment hmem
  have hcapture : c ∈ p.captures := by
    unfold Compiled.captures Pattern.captures
    rw [(compile_tokens hp).1]
    exact List.mem_filterMap.2 ⟨_, List.mem_map_of_mem hmem, rfl⟩
  obtain ⟨hshape, hstar⟩ := h c hcapture
  exact Capture.slashes_congr hshape hstar

end Pattern

/-- A text has one part more than it has separators. -/
theorem Query.length_splitAt (separator : Char) (cs : List Char) :
    (splitAt separator cs).length = cs.count separator + 1 := by
  induction cs with
  | nil => rfl
  | cons c cs ih =>
    unfold splitAt
    by_cases hc : c = separator
    · rw [if_pos hc, hc, List.length_cons, ih, List.count_cons_self]
    · rw [if_neg hc, List.count_cons_of_ne hc, ← ih]
      cases hparts : splitAt separator cs with
      | nil =>
        rw [hparts] at ih
        cases ih
      | cons part parts => rfl

end SiteRouter
