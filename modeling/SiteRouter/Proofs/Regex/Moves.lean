import SiteRouter.Proofs.Regex.Language

/-!
# Relations along a match

A relation between places that holds where one character is read, and of places in turn, holds
between a place and every place that an expression reaches from it (`ends_leads`); it need not hold
where a text is kept if the expression has no group.

Two relations are of use. An expression with anchors, conditions, references or possessive counts is
not regular: what it reads depends on where it stands. Still, if it has no group of its own, all
that it does is read: the places it reaches lie after a text that follows, with the groups as they
were (`ends_moves`). And what a match keeps for its groups is taken from the text that it reads
(`isSuffix_of_matchStart`).
-/

namespace SiteRouter.Regex

/-- The expression has no group whose text is kept. -/
def KeepsNothing : Regex → Prop
  | .empty | .char _ | .notChar _ | .any | .set _ | .anchor _ | .backref _ => True
  | .seq r s | .alt r s => KeepsNothing r ∧ KeepsNothing s
  | .group _ _ => False
  | .atomic r | .ahead r | .repeated r _ _ _ => KeepsNothing r

namespace Cursor

/-- The place lies after a text that follows the first one, and nothing else is different. -/
def Before (c c' : Cursor) : Prop := ∃ w rest, c.rest = w ++ rest ∧ c' = c.reading w rest

theorem Before.refl (c : Cursor) : c.Before c :=
  ⟨[], c.rest, rfl, (c.reading_nil).symm⟩

theorem Before.trans {c₁ c₂ c₃ : Cursor} (h : c₁.Before c₂) (h' : c₂.Before c₃) :
    c₁.Before c₃ := by
  obtain ⟨u, rest, hu, rfl⟩ := h
  obtain ⟨v, rest', hv, rfl⟩ := h'
  rw [reading_rest] at hv
  exact ⟨u ++ v, rest', by rw [hu, hv, List.append_assoc], reading_reading ..⟩

theorem Before.kept_eq {c c' : Cursor} (h : c.Before c') : c'.kept = c.kept := by
  obtain ⟨w, rest, -, rfl⟩ := h
  rfl

/-- Going on keeps the relation: it holds where nothing happens, where one character is read, in
turn, and where a condition is looked at. -/
structure Onward (R : Cursor → Cursor → Prop) : Prop where
  refl : ∀ c, R c c
  trans : ∀ {c m c' : Cursor}, R c m → R m c' → R c c'
  advance : ∀ {c c' : Cursor} {test : Char → Bool}, c.advance test = some c' → R c c'
  /-- A condition stays in place and keeps what it kept on its way. -/
  aside : ∀ {c c' : Cursor}, R c c' → R c { c with kept := c'.kept }

theorem before_onward : Onward Before where
  refl := .refl
  trans := .trans
  advance := by
    intro c c' test h
    have hone : c' ∈ Places.one test c := Option.mem_toList.2 h
    obtain ⟨w, rest, hc, -, hread⟩ := (Places.Reads.one test c c').1 hone
    exact ⟨w, rest, hc, hread⟩
  aside := by
    intro c c' h
    rw [h.kept_eq]
    exact .refl c

end Cursor

/-- Every place that is reached has the relation to the place it is reached from. -/
def Places.Leads (R : Cursor → Cursor → Prop) (e : Places) : Prop := ∀ c, ∀ c' ∈ e c, R c c'

/-- The first place is one of the places. -/
theorem Places.Leads.head {R : Cursor → Cursor → Prop} {e : Places} (h : e.Leads R)
    {c c' : Cursor} (hc' : (e c).head? = some c') : R c c' :=
  h c c' (List.mem_of_head? hc')

section

variable {R : Cursor → Cursor → Prop} (hR : Cursor.Onward R)

include hR

/-- Going over a text is reading one character after the other. -/
theorem Cursor.Onward.advanceOver {same : Char → Char → Bool} {t : List Char} {c c' : Cursor}
    (h : c.advanceOver same t = some c') : R c c' := by
  induction t generalizing c with
  | nil =>
    cases h
    exact hR.refl _
  | cons x t ih =>
    obtain ⟨m, hm, h⟩ := Option.bind_eq_some_iff.1 h
    exact hR.trans (hR.advance hm) (ih h)

namespace Places.Leads

variable {e next : Places}

theorem stay : Leads R fun c => [c] := by
  intro c c' hc'
  rw [List.mem_singleton.1 hc']
  exact hR.refl c

theorem one (test : Char → Bool) : Leads R (Places.one test) :=
  fun _ _ hc' => hR.advance (Option.mem_toList.1 hc')

theorem andThen (h : e.Leads R) (h' : next.Leads R) : Leads R fun c => (e c).flatMap next := by
  intro c c' hc'
  obtain ⟨m, hm, hc'⟩ := List.mem_flatMap.1 hc'
  exact hR.trans (h c m hm) (h' m c' hc')

theorem times (h : e.Leads R) (n : Nat) : (Places.times e n).Leads R := by
  induction n with
  | zero => exact stay hR
  | succ n ih => exact andThen hR h ih

theorem thenMore (h : e.Leads R) (h' : next.Leads R) : (Places.thenMore e next).Leads R := by
  intro c c' hc'
  obtain ⟨m, hm, hc'⟩ := List.mem_flatMap.1 hc'
  refine hR.trans (h c m hm) ?_
  split at hc'
  · rw [List.mem_singleton.1 hc']
    exact hR.refl m
  · exact h' m c' hc'

theorem greedy (h : e.Leads R) (n : Nat) : (Places.greedy e n).Leads R := by
  induction n with
  | zero => exact stay hR
  | succ n ih =>
    intro c c' hc'
    rcases List.mem_append.1 hc' with hmore | hstay
    · exact thenMore hR h ih c c' hmore
    · rw [List.mem_singleton.1 hstay]
      exact hR.refl c

theorem lazily (h : e.Leads R) (n : Nat) : (Places.lazily e n).Leads R := by
  induction n with
  | zero => exact stay hR
  | succ n ih =>
    intro c c' hc'
    rcases List.mem_cons.1 hc' with rfl | hmore
    · exact hR.refl c'
    · exact thenMore hR h ih c c' hmore

theorem exhaust (h : e.Leads R) (n : Nat) (c : Cursor) : R c (Places.exhaust e n c) := by
  induction n generalizing c with
  | zero => exact hR.refl c
  | succ n ih =>
    rw [Places.exhaust]
    split
    · next m hm =>
      refine hR.trans (h.head hm) ?_
      split
      · exact hR.refl m
      · exact ih m
    · exact hR.refl c

theorem timesFirst (h : e.Leads R) (n : Nat) {c c' : Cursor}
    (hc' : Places.timesFirst e n c = some c') : R c c' := by
  induction n generalizing c with
  | zero =>
    cases hc'
    exact hR.refl _
  | succ n ih =>
    obtain ⟨m, hm, hc'⟩ := Option.bind_eq_some_iff.1 hc'
    exact hR.trans (h.head hm) (ih hc')

theorem repeated (h : e.Leads R) (min : Nat) (max : Option Nat) (mode : Mode) :
    (Places.repeated e min max mode).Leads R := by
  intro c c' hc'
  cases mode with
  | greedy =>
    obtain ⟨m, hm, hc'⟩ := List.mem_flatMap.1 hc'
    exact hR.trans (times hR h min c m hm) (greedy hR h _ m c' hc')
  | lazy =>
    obtain ⟨m, hm, hc'⟩ := List.mem_flatMap.1 hc'
    exact hR.trans (times hR h min c m hm) (lazily hR h _ m c' hc')
  | possessive =>
    obtain ⟨m, hm, rfl⟩ := Option.map_eq_some_iff.1 (Option.mem_toList.1 hc')
    exact hR.trans (timesFirst hR h min hm) (exhaust hR h _ m)

end Places.Leads

/-- An expression leads to places that have the relation to where it starts, if it has no group of
its own or keeping a text for a group is no harm to the relation. -/
theorem ends_leads (ignoreCase : Bool) {r : Regex}
    (h : r.KeepsNothing ∨ ∀ c c' n, R c c' → R c (c'.keep n c)) :
    (r.ends ignoreCase).Leads R := by
  induction r with
  | empty => exact .stay hR
  | char n => exact .one hR _
  | notChar n => exact .one hR _
  | any => exact .one hR _
  | set s => exact .one hR _
  | anchor a =>
    intro c c' hc'
    simp only [ends] at hc'
    split at hc'
    · rw [List.mem_singleton.1 hc']
      exact hR.refl c
    · cases hc'
  | backref n =>
    intro c c' hc'
    obtain ⟨span, -, hover⟩ := Option.bind_eq_some_iff.1 (Option.mem_toList.1 hc')
    exact hR.advanceOver hover
  | seq r s ihr ihs => exact .andThen hR (ihr (h.imp_left And.left)) (ihs (h.imp_left And.right))
  | alt r s ihr ihs =>
    intro c c' hc'
    rcases List.mem_append.1 hc' with hr | hs
    · exact ihr (h.imp_left And.left) c c' hr
    · exact ihs (h.imp_left And.right) c c' hs
  | group n r ih =>
    have hkeep := h.resolve_left id
    intro c c' hc'
    obtain ⟨m, hm, rfl⟩ := List.mem_map.1 hc'
    exact hkeep c m n (ih (.inr hkeep) c m hm)
  | atomic r ih =>
    intro c c' hc'
    exact (ih h).head (Option.mem_toList.1 hc')
  | ahead r ih =>
    intro c c' hc'
    obtain ⟨m, hm, rfl⟩ := Option.map_eq_some_iff.1 (Option.mem_toList.1 hc')
    exact hR.aside ((ih h).head hm)
  | repeated r min max mode ih => exact .repeated hR (ih h) min max mode

end

/-! ## Expressions that keep nothing -/

/-- All that is done on the way to a place is reading. -/
def Places.Moves (e : Places) : Prop := ∀ c, ∀ c' ∈ e c, c.Before c'

/-- An expression without a group of its own does nothing but read. -/
theorem ends_moves (ignoreCase : Bool) {r : Regex} (h : r.KeepsNothing) :
    (r.ends ignoreCase).Moves :=
  ends_leads Cursor.before_onward ignoreCase (.inl h)

/-- Expressions in turn that have no group do nothing but read. -/
theorem endsAll_moves (ignoreCase : Bool) {rs : List Regex} (h : ∀ r ∈ rs, r.KeepsNothing) :
    (endsAll ignoreCase rs).Moves := by
  induction rs with
  | nil => exact Places.Leads.stay Cursor.before_onward
  | cons r rs ih =>
    rw [List.forall_mem_cons] at h
    exact Places.Leads.andThen Cursor.before_onward (ends_moves ignoreCase h.1) (ih h.2)

/-- A sequence has a group only if one of its members has one. -/
theorem keepsNothing_sequence {rs : List Regex} (h : ∀ r ∈ rs, r.KeepsNothing) :
    (sequence rs).KeepsNothing := by
  induction rs with
  | nil => trivial
  | cons r rs ih =>
    rw [List.forall_mem_cons] at h
    cases rs with
    | nil => exact h.1
    | cons s rs => exact ⟨h.1, ih h.2⟩

/-! ## What is kept for groups -/

/-- What is left at the second place is an end of what is left at the first, and what is kept on the
way begins in it. -/
def Cursor.Within (c c' : Cursor) : Prop :=
  c'.rest <:+ c.rest ∧ ∀ k ∈ c'.kept, k ∈ c.kept ∨ k.2.start <:+ c.rest

theorem Cursor.within_onward : Onward Within where
  refl c := ⟨List.suffix_rfl, fun _ => .inl⟩
  trans := by
    rintro c m c' ⟨hm, hkept⟩ ⟨hc', hkept'⟩
    refine ⟨hc'.trans hm, fun k hk => ?_⟩
    rcases hkept' k hk with hold | hnew
    · exact hkept k hold
    · exact .inr (hnew.trans hm)
  advance := by
    intro c c' test h
    unfold Cursor.advance at h
    split at h
    · cases h
    · next x rest hrest =>
      split at h <;> cases h
      exact ⟨hrest ▸ List.suffix_cons x rest, fun _ => .inl⟩
  aside h := ⟨List.suffix_rfl, h.2⟩

/-- What is kept for a group begins where the group does. -/
theorem Cursor.Within.keep {c c' : Cursor} (h : c.Within c') (n : Nat) :
    c.Within (c'.keep n c) := by
  refine ⟨h.1, fun k hk => ?_⟩
  rcases List.mem_cons.1 hk with rfl | hk
  · exact .inr List.suffix_rfl
  · exact h.2 k hk

/-- What a match keeps for a group is taken from the text. -/
theorem isSuffix_of_matchStart {ignoreCase : Bool} {r : Regex} {cs : List Char} {c : Cursor}
    (h : r.matchStart ignoreCase cs = some c) {n : Nat} {s : Span} (hs : c.group? n = some s) :
    s.start <:+ cs := by
  have hleads := ends_leads (r := r) Cursor.within_onward ignoreCase
    (.inr fun _ _ n h => h.keep n)
  rw [matchStart_eq_head?] at h
  obtain ⟨-, hkept⟩ := hleads.head h
  obtain ⟨u, v, hsplit, -⟩ := List.lookup_eq_some_iff.1 hs
  have hmem : (n, s) ∈ c.kept := by
    rw [hsplit]
    exact List.mem_append_right u List.mem_cons_self
  exact (hkept _ hmem).resolve_left List.not_mem_nil

end SiteRouter.Regex
