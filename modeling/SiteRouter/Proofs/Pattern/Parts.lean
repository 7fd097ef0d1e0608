import SiteRouter.Proofs.Pattern.Default
import SiteRouter.Proofs.Pattern.Segment

/-!
# Paths as parts

A pattern of segments divides a path at its slashes. `Shares` says which parts each segment gets:
a text one part, a parameter as many as its modifier allows. Deriving a path from the tokens of the
segments is the same as sharing out its parts (`derives_tokens_iff`). The parts are settled by the
path (`slashed_append_inj`), and where at most one segment has a modifier the number of parts
settles what each segment gets (`Shares.unique`), so that the groups of a match are known.
-/

namespace SiteRouter.Pattern

/-! ## Parts -/

/-- A part of a path is not empty and has no slash in it. -/
def IsPart (u : List Char) : Prop := u ≠ [] ∧ '/' ∉ u

/-- Parts with a slash before each. -/
def slashed (ps : List (List Char)) : List Char := ps.flatMap ('/' :: ·)

@[simp] theorem slashed_nil : slashed [] = [] := rfl

@[simp] theorem slashed_cons (u : List Char) (ps : List (List Char)) :
    slashed (u :: ps) = '/' :: (u ++ slashed ps) := rfl

@[simp] theorem slashed_append (ps qs : List (List Char)) :
    slashed (ps ++ qs) = slashed ps ++ slashed qs := List.flatMap_append

/-- Parts make an empty path exactly if there are none. -/
theorem slashed_eq_nil_iff {ps : List (List Char)} : slashed ps = [] ↔ ps = [] := by
  cases ps with
  | nil => exact ⟨fun _ => rfl, fun _ => rfl⟩
  | cons u ps =>
    rw [slashed_cons]
    exact ⟨nofun, nofun⟩

/-- Parts joined by slashes; no parts make no value. -/
def joined? : List (List Char) → Option (List Char)
  | [] => none
  | ps => some (['/'].intercalate ps)

/-- Texts joined by a character are the first text and the others with the character before each. -/
theorem intercalate_singleton_cons (d : Char) (u : List Char) (us : List (List Char)) :
    [d].intercalate (u :: us) = u ++ us.flatMap (d :: ·) := by
  induction us generalizing u with
  | nil => rw [List.intercalate_singleton, List.flatMap_nil, List.append_nil]
  | cons v us ih =>
    calc [d].intercalate (u :: v :: us)
        = u ++ [d] ++ [d].intercalate (v :: us) := List.intercalate_cons_cons
      _ = u ++ [d] ++ (v ++ us.flatMap (d :: ·)) := by rw [ih]
      _ = u ++ (v :: us).flatMap (d :: ·) := by
          rw [List.append_assoc, List.flatMap_cons, List.singleton_append, List.cons_append]

/-- Parts joined by slashes are the first part and the others with a slash before each. -/
theorem intercalate_eq (u : List Char) (us : List (List Char)) :
    ['/'].intercalate (u :: us) = u ++ slashed us := intercalate_singleton_cons '/' u us

theorem joined?_cons (u : List Char) (us : List (List Char)) :
    joined? (u :: us) = some (u ++ slashed us) := by
  rw [joined?, intercalate_eq]
  exact nofun

/-- A slash and any text start with a slash. -/
theorem atSlash_cons (cs : List Char) : AtSlash ('/' :: cs) := by
  rintro c ⟨⟩
  rfl

/-- What may be left at the end of a path starts with a slash or is nothing. -/
theorem atSlash_end {rest : List Char} (h : rest = [] ∨ rest = ['/']) : AtSlash rest := by
  rcases h with rfl | rfl
  · exact atSlash_nil
  · exact atSlash_cons []

/-- What follows the first part starts with a slash or is nothing. -/
theorem atSlash_slashed (ps : List (List Char)) {rest : List Char} (hrest : AtSlash rest) :
    AtSlash (slashed ps ++ rest) := by
  cases ps with
  | nil => exact hrest
  | cons u ps => exact atSlash_cons _

/-- A part is settled by the text that starts with it. -/
theorem part_append_inj {u v s t : List Char} (hu : '/' ∉ u) (hv : '/' ∉ v) (hs : AtSlash s)
    (ht : AtSlash t) (h : u ++ s = v ++ t) : u = v ∧ s = t := by
  -- The part is what stands before the first slash.
  have htake : ∀ {u s : List Char}, '/' ∉ u → AtSlash s → (u ++ s).takeWhile (· != '/') = u := by
    intro u s hu hs
    rw [List.takeWhile_append_of_pos fun c hc => bne_iff_ne.2 (ne_of_mem_of_not_mem hc hu)]
    cases s with
    | nil => simp
    | cons c s => simp [hs c rfl]
  have huv : u = v := by rw [← htake hu hs, h, htake hv ht]
  exact ⟨huv, List.append_cancel_left (huv ▸ h)⟩

/-- The parts of a path, and the slash after them, are settled by the path. -/
theorem slashed_append_inj {ps qs : List (List Char)} {rest rest' : List Char}
    (hps : ∀ u ∈ ps, IsPart u) (hqs : ∀ u ∈ qs, IsPart u) (hrest : rest = [] ∨ rest = ['/'])
    (hrest' : rest' = [] ∨ rest' = ['/']) (h : slashed ps ++ rest = slashed qs ++ rest') :
    ps = qs ∧ rest = rest' := by
  induction ps generalizing qs with
  | nil =>
    cases qs with
    | nil => exact ⟨rfl, h⟩
    | cons v qs =>
      have hv := (hqs v List.mem_cons_self).1
      rcases hrest with rfl | rfl <;> simp [hv] at h
  | cons u ps ih =>
    rw [List.forall_mem_cons] at hps
    cases qs with
    | nil =>
      have hu := hps.1.1
      rcases hrest' with rfl | rfl <;> simp [hu] at h
    | cons v qs =>
      rw [List.forall_mem_cons] at hqs
      -- Both first parts end at the next slash, so they are the same part.
      simp only [slashed_cons, List.cons_append, List.append_assoc, List.cons.injEq,
        true_and] at h
      obtain ⟨rfl, htail⟩ := part_append_inj hps.1.2 hqs.1.2
        (atSlash_slashed ps (atSlash_end hrest)) (atSlash_slashed qs (atSlash_end hrest')) h
      obtain ⟨rfl, rfl⟩ := ih hps.2 hqs.2 htail
      exact ⟨rfl, rfl⟩

/-- As many parts at the start of a path, and what follows them, are settled by the path. -/
theorem slashed_append_inj_of_length {ps qs : List (List Char)} {s t : List Char}
    (hps : ∀ u ∈ ps, IsPart u) (hqs : ∀ u ∈ qs, IsPart u) (hlength : ps.length = qs.length)
    (hs : AtSlash s) (ht : AtSlash t) (h : slashed ps ++ s = slashed qs ++ t) :
    ps = qs ∧ s = t := by
  induction ps generalizing qs with
  | nil =>
    obtain rfl := List.length_eq_zero_iff.1 hlength.symm
    exact ⟨rfl, h⟩
  | cons u ps ih =>
    rw [List.forall_mem_cons] at hps
    cases qs with
    | nil => cases hlength
    | cons v qs =>
      rw [List.forall_mem_cons] at hqs
      simp only [slashed_cons, List.cons_append, List.append_assoc, List.cons.injEq,
        true_and] at h
      obtain ⟨rfl, htail⟩ := part_append_inj hps.1.2 hqs.1.2 (atSlash_slashed ps hs)
        (atSlash_slashed qs ht) h
      obtain ⟨rfl, rfl⟩ := ih hps.2 hqs.2 (Nat.succ.inj hlength) htail
      exact ⟨rfl, rfl⟩

/-! ## Sharing parts out -/

/-- Whether a parameter with the modifier may take the number of parts. -/
def Modifier.Allows : Modifier → Nat → Prop
  | once, n => n = 1
  | optional, n => n ≤ 1
  | repeated, n => 1 ≤ n
  | optionalRepeated, _ => True

theorem Modifier.allows_zero (m : Modifier) : m.Allows 0 ↔ m.isOptional = true := by
  cases m <;> simp [Allows, isOptional]

theorem Modifier.allows_succ (m : Modifier) (n : Nat) :
    m.Allows (n + 1) ↔ (m.isRepeated = false → n = 0) := by
  cases m <;> simp [Allows, isRepeated]

/-- The segments share the parts among them: a text takes one that is the same as it, a parameter
as many as it may, and its value is these joined by slashes. -/
inductive Shares (ignoreCase : Bool) :
    List Segment → List (List Char) → List (Option (List Char)) → Prop
  /-- No part is left. -/
  | nil : Shares ignoreCase [] [] []
  /-- A text takes one part. -/
  | literal {t u : List Char} {ss : List Segment} {ps : List (List Char)}
    {vs : List (Option (List Char))} :
    SameText ignoreCase t u → Shares ignoreCase ss ps vs →
    Shares ignoreCase (.literal t :: ss) (u :: ps) vs
  /-- A parameter takes parts. -/
  | parameter {name : List Char} {body : Option (List Char)} {m : Modifier} {ss : List Segment}
    {qs ps : List (List Char)} {vs : List (Option (List Char))} :
    m.Allows qs.length → Shares ignoreCase ss ps vs →
    Shares ignoreCase (.parameter name body m :: ss) (qs ++ ps) (joined? qs :: vs)

/-- Whether the segment is a parameter with a modifier. -/
def Segment.isModified : Segment → Bool
  | literal _ => false
  | parameter _ _ m => m != .once

/-- Without modifiers each segment takes one part. -/
theorem Shares.length_eq {ignoreCase : Bool} {ss : List Segment} {ps : List (List Char)}
    {vs : List (Option (List Char))} (h : Shares ignoreCase ss ps vs)
    (hss : ∀ s ∈ ss, s.isModified = false) : ps.length = ss.length := by
  induction h with
  | nil => rfl
  | literal _ _ ih =>
    rw [List.forall_mem_cons] at hss
    rw [List.length_cons, List.length_cons, ih hss.2]
  | @parameter name body m ss qs ps vs hallows _ ih =>
    rw [List.forall_mem_cons] at hss
    have honce : m = .once := by simpa [Segment.isModified] using hss.1
    have hqs : qs.length = 1 := by rwa [honce] at hallows
    rw [List.length_append, List.length_cons, hqs, ih hss.2, Nat.add_comm]

/-- What a parameter gets comes first. -/
theorem Shares.parameter_inv {ignoreCase : Bool} {name : List Char} {body : Option (List Char)}
    {m : Modifier} {ss : List Segment} {rs : List (List Char)} {vs : List (Option (List Char))}
    (h : Shares ignoreCase (.parameter name body m :: ss) rs vs) :
    ∃ qs ps vs', rs = qs ++ ps ∧ vs = joined? qs :: vs' ∧ m.Allows qs.length ∧
      Shares ignoreCase ss ps vs' := by
  cases h with
  | parameter hallows h => exact ⟨_, _, _, rfl, rfl, hallows, h⟩

/-- A parameter with a modifier leaves none for the segments after it. -/
theorem not_isModified_of_filter {s : Segment} {ss : List Segment}
    (hss : ((s :: ss).filter Segment.isModified).length ≤ 1) (hs : s.isModified = true) :
    ∀ s' ∈ ss, s'.isModified = false := by
  rw [List.filter_cons_of_pos hs, List.length_cons] at hss
  have hnil : ss.filter Segment.isModified = [] := List.length_eq_zero_iff.1 (by omega)
  intro s' hs'
  exact Bool.eq_false_iff.2 (List.filter_eq_nil_iff.1 hnil s' hs')

/-- With at most one modifier the parts settle what each segment gets. -/
theorem Shares.unique {ignoreCase : Bool} {ss : List Segment} {ps : List (List Char)}
    {vs vs' : List (Option (List Char))} (hss : (ss.filter Segment.isModified).length ≤ 1)
    (h : Shares ignoreCase ss ps vs) (h' : Shares ignoreCase ss ps vs') : vs = vs' := by
  induction h generalizing vs' with
  | nil =>
    cases h'
    rfl
  | literal _ _ ih =>
    cases h' with
    | literal _ h' => exact ih hss h'
  | @parameter name body m ss qs ps vs hallows h ih =>
    obtain ⟨qs', ps', vs'', hsplit, rfl, hallows', h'⟩ := h'.parameter_inv
    have hlength : qs.length = qs'.length := by
      cases hm : (Segment.parameter name body m).isModified with
      | false =>
        have honce : m = .once := by simpa [Segment.isModified] using hm
        rw [honce] at hallows hallows'
        exact hallows.trans hallows'.symm
      | true =>
        -- The segments after this one take as many parts in either case.
        have hrest := not_isModified_of_filter hss hm
        have hps := h.length_eq hrest
        have hps' := h'.length_eq hrest
        have hall := congrArg List.length hsplit
        rw [List.length_append, List.length_append] at hall
        omega
    obtain ⟨rfl, rfl⟩ := List.append_inj hsplit hlength
    -- The others have no more modifiers, so the induction settles what they get.
    have hsub := ((List.sublist_cons_self (.parameter name body m) ss).filter
      Segment.isModified).length_le
    rw [ih (Nat.le_trans hsub hss) h']

/-! ## Deriving is sharing out -/

/-- A text at the start of a derivation. -/
theorem derives_literal_iff {ignoreCase : Bool} {t w : List Char} {ss : List Step}
    {vs : List (Option (List Char))} :
    Derives ignoreCase (.literal t :: ss) w vs ↔
      ∃ u w', w = u ++ w' ∧ SameText ignoreCase t u ∧ Derives ignoreCase ss w' vs := by
  constructor
  · rintro (_ | ⟨ht, hw⟩)
    exact ⟨_, _, rfl, ht, hw⟩
  · rintro ⟨u, w', rfl, ht, hw⟩
    exact .literal ht hw

/-- A capture at the start of a derivation. -/
theorem derives_capture_iff {ignoreCase : Bool} {c : Capture} {segment : Regex} {w : List Char}
    {ss : List Step} {vs : List (Option (List Char))} :
    Derives ignoreCase (.capture c segment :: ss) w vs ↔
      ∃ u w' v vs', w = u ++ w' ∧ vs = v :: vs' ∧ c.Takes ignoreCase segment u v ∧
        Derives ignoreCase ss w' vs' := by
  constructor
  · rintro (_ | _ | ⟨ht, hw⟩)
    exact ⟨_, _, _, _, rfl, rfl, ht, hw⟩
  · rintro ⟨u, w', v, vs', rfl, rfl, ht, hw⟩
    exact .capture ht hw

/-- Two texts side by side are the same as one text. -/
theorem sameText_append {ignoreCase : Bool} {s t w : List Char} :
    SameText ignoreCase (s ++ t) w ↔
      ∃ u v, w = u ++ v ∧ SameText ignoreCase s u ∧ SameText ignoreCase t v := by
  constructor
  · intro h
    refine ⟨w.take s.length, w.drop s.length, (List.take_append_drop _ w).symm, ?_, ?_⟩
    · exact (List.forall₂_take_append w s t h.flip).flip
    · exact (List.forall₂_drop_append w s t h.flip).flip
  · rintro ⟨u, v, rfl, hs, ht⟩
    exact List.rel_append hs ht

/-- A text joined to the literal after it is derived as if it stood alone. -/
theorem derives_prependLiteral {ignoreCase : Bool} {step : Token → Step}
    (hliteral : ∀ t, step (.literal t) = .literal t) (t : List Char) (ts : List Token)
    {w : List Char} {vs : List (Option (List Char))} :
    Derives ignoreCase ((prependLiteral t ts).map step) w vs ↔
      Derives ignoreCase (.literal t :: ts.map step) w vs := by
  match ts with
  | [] =>
    show Derives ignoreCase [step (.literal t)] w vs ↔ _
    rw [hliteral]
    rfl
  | .capture c :: ts =>
    show Derives ignoreCase (step (.literal t) :: (Token.capture c :: ts).map step) w vs ↔ _
    rw [hliteral]
  | .literal u :: ts =>
    rw [prependLiteral, List.map_cons, List.map_cons, hliteral, hliteral]
    simp only [derives_literal_iff, sameText_append]
    constructor
    · rintro ⟨_, w', rfl, ⟨x, y, rfl, hx, hy⟩, hw⟩
      exact ⟨x, y ++ w', by rw [List.append_assoc], hx, y, w', rfl, hy, hw⟩
    · rintro ⟨x, _, rfl, hx, y, w', rfl, hy, hw⟩
      exact ⟨x ++ y, w', by rw [List.append_assoc], ⟨x, y, rfl, hx, hy⟩, hw⟩

/-- A character without case stands in a text if it stands in one that is the same. -/
theorem SameText.mem_of_mem {ignoreCase : Bool} {t u : List Char} (h : SameText ignoreCase t u)
    {x : Char} (hcase : x.toNat < Text.firstLetter) (hx : x ∈ u) : x ∈ t := by
  induction h with
  | nil => cases hx
  | @cons a b t u hb _ ih =>
    rcases List.mem_cons.1 hx with rfl | hx
    · rw [Regex.fitsCode_caseless_right ignoreCase hcase] at hb
      rw [hb]
      exact List.mem_cons_self
    · exact List.mem_cons_of_mem a (ih hx)

/-- What is the same as a plain text is a part. -/
theorem SameText.isPart {ignoreCase : Bool} {t u : List Char}
    (ht : (Segment.literal t).WellFormed) (h : SameText ignoreCase t u) : IsPart u := by
  constructor
  · rintro rfl
    cases h
    exact ht.1 rfl
  -- A slash has no case, and a plain text has none.
  · intro hslash
    exact absurd (ht.2 '/' (h.mem_of_mem (by decide) hslash)) (by decide)

/-- A parameter without a sub-pattern may read the parts. -/
theorem spells_parameter (ignoreCase : Bool) (name : List Char) (m : Modifier) (u : List Char) :
    (Segment.capture name none m).defaultExpr.Spells ignoreCase u ↔ IsPart u := by
  have hdefault : (Segment.capture name none m).IsDefault :=
    ⟨nofun, by rintro x ⟨⟩; exact .inl rfl⟩
  rw [hdefault.spells]
  rfl

/-- What a parameter without a sub-pattern takes is parts, as many as its modifier allows. -/
theorem takes_parameter_iff {ignoreCase : Bool} {name : List Char} {m : Modifier} {w : List Char}
    {v : Option (List Char)} :
    (Segment.capture name none m).Takes ignoreCase (Segment.capture name none m).defaultExpr w v ↔
      ∃ qs, (∀ u ∈ qs, IsPart u) ∧ m.Allows qs.length ∧ w = slashed qs ∧ v = joined? qs := by
  constructor
  · intro h
    cases v with
    | none =>
      obtain ⟨hoptional, rfl⟩ := h
      exact ⟨[], nofun, m.allows_zero.2 hoptional, rfl, rfl⟩
    | some v =>
      obtain ⟨rfl, u, us, hu, hus, hone, rfl⟩ := h
      simp only [spells_parameter] at hu hus
      refine ⟨u :: us, List.forall_mem_cons.2 ⟨hu, hus⟩, ?_, rfl, (joined?_cons u us).symm⟩
      exact (m.allows_succ _).2 fun hm => List.length_eq_zero_iff.2 (hone hm)
  · rintro ⟨qs, hqs, hallows, rfl, rfl⟩
    cases qs with
    | nil => exact ⟨m.allows_zero.1 hallows, rfl⟩
    | cons u us =>
      rw [List.forall_mem_cons] at hqs
      rw [joined?_cons]
      refine ⟨rfl, u, us, (spells_parameter _ _ _ _).2 hqs.1,
        fun u' hu' => (spells_parameter _ _ _ _).2 (hqs.2 u' hu'), fun hm => ?_, rfl⟩
      exact List.length_eq_zero_iff.1 ((m.allows_succ _).1 hallows hm)

/-- A plain text behind its slash derives one part behind a slash. -/
theorem derives_slash_literal_iff {ignoreCase : Bool} {t w : List Char} {ss : List Step}
    {vs : List (Option (List Char))} (ht : (Segment.literal t).WellFormed) :
    Derives ignoreCase (.literal ('/' :: t) :: ss) w vs ↔
      ∃ u w', w = '/' :: (u ++ w') ∧ IsPart u ∧ SameText ignoreCase t u ∧
        Derives ignoreCase ss w' vs := by
  rw [derives_literal_iff]
  constructor
  · rintro ⟨_, w', rfl, _ | ⟨hslash, hu⟩, hw'⟩
    rw [Regex.fitsCode_caseless_left ignoreCase (by decide)] at hslash
    exact ⟨_, w', by rw [hslash]; rfl, SameText.isPart ht hu, hu, hw'⟩
  · rintro ⟨u, w', rfl, -, hu, hw'⟩
    exact ⟨'/' :: u, w', rfl, .cons (Regex.fitsCode_self ignoreCase '/') hu, hw'⟩

/-- A parameter without a sub-pattern derives parts behind slashes. -/
theorem derives_parameter_iff {ignoreCase : Bool} {name w : List Char} {m : Modifier}
    {ss : List Step} {vs : List (Option (List Char))} :
    Derives ignoreCase (.capture (Segment.capture name none m)
        (Segment.capture name none m).defaultExpr :: ss) w vs ↔
      ∃ qs w' vs', w = slashed qs ++ w' ∧ vs = joined? qs :: vs' ∧ (∀ u ∈ qs, IsPart u) ∧
        m.Allows qs.length ∧ Derives ignoreCase ss w' vs' := by
  rw [derives_capture_iff]
  simp only [takes_parameter_iff]
  constructor
  · rintro ⟨_, w', _, vs', rfl, rfl, ⟨qs, hqs, hallows, rfl, rfl⟩, hw'⟩
    exact ⟨qs, w', vs', rfl, rfl, hqs, hallows, hw'⟩
  · rintro ⟨qs, w', vs', rfl, rfl, hqs, hallows, hw'⟩
    exact ⟨_, w', _, vs', rfl, rfl, ⟨qs, hqs, hallows, rfl, rfl⟩, hw'⟩

/-- The sub-pattern of a segment, if it has one. -/
def Segment.body? : Segment → Option (List Char)
  | literal _ => none
  | parameter _ body _ => body

/-- Deriving a text from the tokens of segments is sharing out its parts. -/
theorem derives_tokens_iff {ignoreCase : Bool} {ss : List Segment}
    (hss : ∀ s ∈ ss, s.WellFormed ∧ s.body? = none) {w : List Char}
    {vs : List (Option (List Char))} :
    Derives ignoreCase ((Segment.tokens ss).map Token.defaultStep) w vs ↔
      ∃ ps, (∀ u ∈ ps, IsPart u) ∧ w = slashed ps ∧ Shares ignoreCase ss ps vs := by
  induction ss generalizing w vs with
  | nil =>
    constructor
    · rintro ⟨⟩
      exact ⟨[], nofun, rfl, .nil⟩
    · rintro ⟨_, -, rfl, ⟨⟩⟩
      exact .nil
  | cons s ss ih =>
    rw [List.forall_mem_cons] at hss
    have ih := @ih hss.2
    cases s with
    | literal t =>
      rw [Segment.tokens, derives_prependLiteral fun _ => rfl, derives_slash_literal_iff hss.1.1]
      simp only [ih]
      constructor
      · rintro ⟨u, _, rfl, hu, ht, ps, hps, rfl, hshares⟩
        exact ⟨u :: ps, List.forall_mem_cons.2 ⟨hu, hps⟩, rfl, .literal ht hshares⟩
      · rintro ⟨_, hps, rfl, _ | ⟨ht, hshares⟩⟩
        rw [List.forall_mem_cons] at hps
        exact ⟨_, _, rfl, hps.1, ht, _, hps.2, rfl, hshares⟩
    | parameter name body m =>
      obtain rfl : body = none := hss.1.2
      show Derives ignoreCase (.capture (Segment.capture name none m)
        (Segment.capture name none m).defaultExpr :: (Segment.tokens ss).map Token.defaultStep)
        w vs ↔ _
      rw [derives_parameter_iff]
      simp only [ih]
      constructor
      · rintro ⟨qs, _, vs', rfl, rfl, hqs, hallows, ps, hps, rfl, hshares⟩
        exact ⟨qs ++ ps, List.forall_mem_append.2 ⟨hqs, hps⟩, (slashed_append qs ps).symm,
          .parameter hallows hshares⟩
      · rintro ⟨rs, hrs, rfl, hshares⟩
        obtain ⟨qs, ps, vs', rfl, rfl, hallows, hshares⟩ := hshares.parameter_inv
        rw [List.forall_mem_append] at hrs
        exact ⟨qs, _, vs', slashed_append qs ps, rfl, hrs.1, hallows, ps, hrs.2, rfl, hshares⟩

end SiteRouter.Pattern
