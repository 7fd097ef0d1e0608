import SiteRouter.Proofs.Regex.First
import SiteRouter.Proofs.Pattern.Values
import SiteRouter.Text.BasicLatin

/-!
# A repeated parameter behind a text

What is written for a sequence are its elements with the delimiter of the parameter between them: its
lead, or a slash where it has none. What is read are values with the lead between them. The two are
the same where there is a lead, and then everything is read again that was written, though a match
that need not reach the end of the path could stop before. Without a lead a path with several
elements is not matched, or only its first element is read.
-/

namespace SiteRouter.Pattern

open Regex (Cursor Places ends endsAll)

/-! ## Reading the pattern -/

/-- The slash or point at the end of a text, which is the lead of a capture that follows. -/
def leadOf (s : List Char) : Option Char := s.getLast?.filter fun x => x = '/' || x = '.'

/-- A repeated parameter without a sub-pattern. -/
def Capture.repeatedParameter (name : List Char) (lead : Option Char) : Capture :=
  ⟨.named (String.ofList name), lead, .segment, .repeated, false⟩

section

variable {s name : List Char} (hname : (Segment.parameter name none .repeated).WellFormed)

include hname

/-- A repeated parameter at the end of a pattern. -/
theorem captureOf?_repeated (lead : Option Char) :
    captureOf? lead (':' :: (name ++ ['+'])) =
      some (.capture lead (.parameter name none) .repeated none, name.length + 2) :=
  captureOf?_parameter lead hname atSlash_nil

theorem pieces_repeated :
    pieces (':' :: (name ++ ['+'])) = [.capture none (.parameter name none) .repeated none] := by
  have hdrop : (name ++ ['+']).drop (name.length + 1) = [] := by simp
  rw [pieces_cons, readPiece_other (by decide) (by decide), captureOf?_repeated hname]
  show _ :: pieces ((name ++ ['+']).drop (name.length + 1)) = _
  rw [hdrop]
  rfl

/-- The last character of the text before the parameter is its lead or stands for itself. -/
theorem exists_pieces_repeated (hs : ∀ x ∈ s, Segment.isPlain x = true ∨ x = '/') :
    ∃ t, s = t ++ (leadOf s).toList ∧ pieces (s ++ ':' :: (name ++ ['+'])) =
      t.map Piece.plain ++ [.capture (leadOf s) (.parameter name none) .repeated none] := by
  rcases List.eq_nil_or_concat s with rfl | ⟨t, x, rfl⟩
  · exact ⟨[], rfl, pieces_repeated hname⟩
  · rw [List.concat_eq_append] at hs ⊢
    rw [List.forall_mem_append, List.forall_mem_singleton] at hs
    have hnot : x ≠ '*' ∧ x ≠ ':' ∧ x ≠ '(' ∧ x ≠ '\\' := by
      refine ⟨?_, ?_, ?_, ?_⟩ <;> rintro rfl <;> exact absurd hs.2 (by decide)
    have hlast : NoCapture (x :: ':' :: (name ++ ['+'])) := by
      rintro y ⟨⟩
      exact ⟨hnot.1, hnot.2.1, hnot.2.2.1⟩
    have hpieces : pieces (t ++ [x] ++ ':' :: (name ++ ['+'])) =
        t.map Piece.plain ++ pieces (x :: ':' :: (name ++ ['+'])) := by
      rw [List.append_assoc, List.singleton_append, pieces_plain hs.1 hlast]
    by_cases hx : x = '/' ∨ x = '.'
    · have hlead : leadOf (t ++ [x]) = some x := by
        rw [leadOf, List.getLast?_concat]
        exact Option.filter_eq_some_iff.2 ⟨rfl, by simpa using hx⟩
      have hdrop : (':' :: (name ++ ['+'])).drop (name.length + 2) = [] := by simp
      refine ⟨t, by rw [hlead]; rfl, ?_⟩
      rw [hpieces, hlead, pieces_cons, readPiece_lead hx, captureOf?_repeated hname,
        Option.getD_some, hdrop]
      rfl
    · have hlead : leadOf (t ++ [x]) = none := by
        rw [leadOf, List.getLast?_concat]
        exact Option.filter_eq_none_iff.2 fun y hy => by
          obtain rfl := Option.some.inj hy
          simpa using hx
      refine ⟨t ++ [x], by rw [hlead]; exact (List.append_nil _).symm, ?_⟩
      rw [hpieces, hlead, pieces_cons, readPiece_other hx hnot.2.2.2, captureOf?, hlast.formOf?,
        Option.map_none, Option.getD_none, List.drop_zero, pieces_repeated hname, List.map_append,
        List.append_assoc]
      rfl

/-- A text and a repeated parameter are read as the text without the lead, and a capture with it. -/
theorem parse_repeated (hs : ∀ x ∈ s, Segment.isPlain x = true ∨ x = '/') :
    ∃ t, s = t ++ (leadOf s).toList ∧ parse (s ++ ':' :: (name ++ ['+'])) =
      .ok (withLiteral t [.capture (.repeatedParameter name (leadOf s))]) := by
  obtain ⟨t, ht, hpieces⟩ := exists_pieces_repeated hname hs
  refine ⟨t, ht, ?_⟩
  have hparens : ∀ x ∈ t, x ≠ '(' ∧ x ≠ ')' := by
    intro x hx
    have hplain := hs x (by rw [ht]; exact List.mem_append_left _ hx)
    refine ⟨?_, ?_⟩ <;> rintro rfl <;> exact absurd hplain (by decide)
  -- The text that is open when the capture comes is all that was read before it.
  let r : Reader := { Reader.start with pending := t.reverse ++ Reader.start.pending }
  have hread : r.readAll [.capture (leadOf s) (.parameter name none) .repeated none] =
      .ok (r.addNamed name (leadOf s) .segment .repeated none) := rfl
  have hflush := r.flush_reverse [.capture (.repeatedParameter name (leadOf s))] (by simp)
  have hpending : r.pending.reverse = t := by simp [r, Reader.start]
  rw [hpending] at hflush
  rw [parse, hpieces, Reader.readAll_plain hparens, hread]
  have hshared : Reader.sharesSegment (leadOf s) none = false := by
    cases leadOf s <;> rfl
  show Except.ok (List.reverse (.capture ⟨_, _, _, _, Reader.sharesSegment _ _⟩ :: r.flush)) = _
  rw [hshared, List.reverse_cons]
  exact congrArg Except.ok hflush

end

/-! ## Writing and deriving behind a text -/

/-- A text before tokens is derived as a literal before them, even if it is empty. -/
theorem derives_withLiteral {ignoreCase : Bool} (t : List Char) (ts : List Token) {w : List Char}
    {vs : List (Option (List Char))} :
    Derives ignoreCase ((withLiteral t ts).map Token.defaultStep) w vs ↔
      Derives ignoreCase (.literal t :: ts.map Token.defaultStep) w vs := by
  unfold withLiteral
  split
  · next ht =>
    subst ht
    rw [derives_literal_iff]
    constructor
    · exact fun h => ⟨[], w, rfl, .nil, h⟩
    · rintro ⟨_, _, rfl, ⟨⟩, h⟩
      exact h
  · exact derives_prependLiteral (fun _ => rfl) t ts

/-- A text before tokens is written before what they write. -/
theorem Compiled.writeSteps_withLiteral {p : Compiled} {params : Mapping} (t : List Char)
    (ts : List Token) {w : List Char} :
    p.writeSteps params ((withLiteral t ts).map Token.defaultStep) = .ok w ↔
      ∃ w', p.writeSteps params (ts.map Token.defaultStep) = .ok w' ∧ w = t ++ w' := by
  unfold withLiteral
  split
  · next ht =>
    subst ht
    exact ⟨fun h => ⟨w, h, rfl⟩, fun ⟨_, h, hw⟩ => hw ▸ h⟩
  · exact writeSteps_prependLiteral t ts

/-- A text before a capture goes before its expressions. -/
theorem stepExprs_withLiteral (t : List Char) (c : Capture) (n : Nat) :
    stepExprs n ((withLiteral t [.capture c]).map Token.defaultStep) =
      literalExprs t ++ c.exprs c.defaultExpr n := by
  unfold withLiteral
  split
  · next ht =>
    subst ht
    exact List.append_nil _
  · show literalExprs t ++ (c.exprs c.defaultExpr (n + 0) ++ []) = _
    rw [List.append_nil]
    rfl

/-- A pattern that ends in a capture does not end in a slash. -/
theorem endsInSlash_withLiteral (t : List Char) (c : Capture) :
    endsInSlash ((withLiteral t [.capture c]).map Token.defaultStep) = false := by
  unfold withLiteral
  split <;> rfl

/-- All steps of such a pattern are matched. -/
theorem matchedSteps_withLiteral (o : Options) (t : List Char) (c : Capture) :
    matchedSteps o ((withLiteral t [.capture c]).map Token.defaultStep) =
      (withLiteral t [.capture c]).map Token.defaultStep :=
  matchedSteps_of_not_endsInSlash o (endsInSlash_withLiteral t c)

theorem isDefault_withLiteral (t : List Char) {c : Capture} (h : c.IsDefault) :
    ∀ t' ∈ withLiteral t [.capture c], t'.IsDefault := by
  unfold withLiteral
  split
  · exact List.forall_mem_singleton.2 h
  · next ht => exact List.forall_mem_cons.2 ⟨ht, List.forall_mem_singleton.2 h⟩

/-- A text adds no group. -/
theorem groupCount_withLiteral (t : List Char) (c : Capture) :
    groupCount ((withLiteral t [.capture c]).map Token.defaultStep) = 1 := by
  unfold withLiteral
  split <;> rfl

/-! ## The first place behind repeated values -/

namespace Capture

variable {ignoreCase : Bool} {c : Capture} {inner : Char → Prop} {next : Places} {d : Char}

/-- What a parameter without a sub-pattern reads has no delimiter in it. -/
theorem Fits.delimiter_not_mem (hstar : c.isStar = false) {v : List Char} (h : c.Fits v) :
    c.delimiter ∉ v := by
  rw [Fits, hstar, if_neg Bool.false_ne_true] at h
  exact h.2

/-- A round of a repeated capture with a lead is the delimiter and a value. -/
theorem reads_round (c : Capture) (ignoreCase : Bool) (hc : c.IsDefault) (hlead : c.lead = some d) :
    (ends ignoreCase (Regex.sequence (literalExprs c.leadText ++ [c.defaultExpr]))).Reads
      fun w => ∃ u, c.Fits u ∧ w = [d] ++ u := by
  have hregular : (Regex.sequence (literalExprs c.leadText ++ [c.defaultExpr])).IsRegular := by
    refine Regex.isRegular_sequence ?_
    rw [List.forall_mem_append, List.forall_mem_singleton]
    exact ⟨isRegular_literalExprs _, IsDefault.isRegular c⟩
  have hcaseless := (Token.IsDefault.regular (t := .capture c) hc).2
  refine (Regex.ends_reads ignoreCase hregular).congr fun w => ?_
  rw [spells_round ignoreCase hcaseless, leadText, hlead]
  simp only [hc.spells, Option.toList_some]

/-- The values of a repeated capture reach the end of the last one first, where nothing goes on
inside a value. -/
theorem head?_valueExprs (hc : c.IsDefault) (hstar : c.isStar = false)
    (hrepeated : c.modifier.isRepeated = true) (hlead : c.lead = some d) (hd : ¬inner d)
    (hnext : next.DeadBefore inner) {u : List Char} {us : List (List Char)}
    (hus : ∀ v ∈ u :: us, c.Fits v ∧ ∀ x ∈ v, inner x) {cur cur' : Cursor}
    (hcur : cur.rest = u ++ us.flatMap (d :: ·))
    (hcur' : (next (cur.reading (u ++ us.flatMap (d :: ·)) [])).head? = some cur') :
    ((endsAll ignoreCase (c.valueExprs c.defaultExpr) cur).flatMap next).head? = some cur' := by
  have hvalue : (ends ignoreCase c.defaultExpr).Reads fun w => ∃ u, c.Fits u ∧ w = [] ++ u :=
    (Regex.ends_reads ignoreCase (IsDefault.isRegular c)).congr fun w => by
      simp [hc.spells]
  have hround := c.reads_round ignoreCase hc hlead
  have hfits : ∀ v, c.Fits v → d ∉ v := by
    intro v hv
    have hdelimiter := hv.delimiter_not_mem hstar
    rwa [delimiter, hlead] at hdelimiter
  rw [List.forall_mem_cons] at hus
  have hrounds : Places.DeadBefore inner fun m => (ends ignoreCase (.repeated
      (Regex.sequence (literalExprs c.leadText ++ [c.defaultExpr])) 0 none .greedy) m).flatMap
        next := by
    intro m x hx hinner
    show (ends ignoreCase _ m).flatMap next = []
    rw [Regex.ends_star]
    exact hround.deadBefore_greedy hd hnext _ m x hx hinner
  rw [valueExprs, hrepeated, if_pos rfl, endsAll, Regex.endsAll_singleton, List.flatMap_assoc,
    hvalue.head?_value hfits hrounds hus.1.1 hus.1.2 (fun x => Places.eq_of_head?_delimited) hcur,
    Regex.ends_star]
  exact hround.head?_greedy hfits hd hnext hus.2
    (Nat.le_succ_of_le (Places.length_le_delimited us)) rfl (by rwa [Cursor.reading_reading])

end Capture

/-- A literal is read as it is first. -/
theorem head?_literal (ignoreCase : Bool) {t : List Char} (rest : List Char) {cur : Cursor}
    (hcur : cur.rest = t ++ rest) (next : Places) :
    ((endsAll ignoreCase (literalExprs t) cur).flatMap next).head? =
      (next (cur.reading t rest)).head? := by
  have hends := ends_literal ignoreCase t cur
  refine Regex.head?_flatMap_of_dead ((hends _).2 ⟨t, rest, hcur, .refl ignoreCase t, rfl⟩) ?_
  intro cur' hmem hne
  obtain ⟨w, rest', hsplit, hw, rfl⟩ := (hends _).1 hmem
  obtain ⟨rfl, rfl⟩ := List.append_inj (hcur.symm.trans hsplit) hw.length_eq
  exact absurd rfl hne

/-- Where a match may end, a slash follows or nothing does. -/
theorem EndsAt.atSlash {o : Options} {rest : List Char} (h : EndsAt o false rest) :
    AtSlash rest := by
  intro x hx
  rcases h with hstop | ⟨-, rfl⟩
  · unfold StopsAt at hstop
    split at hstop
    · rw [hstop] at hx
      cases hx
    · rcases hstop with ⟨-, hfalse⟩ | hnil | hhead
      · cases hfalse
      · rw [hnil] at hx
        cases hx
      · exact Option.some.inj (hx.symm.trans hhead)
  · exact (Option.some.inj hx).symm

/-- A match does not end inside a value. -/
theorem deadBefore_endExprs (ignoreCase : Bool) (o : Options) :
    Places.DeadBefore (· ≠ '/') (endsAll ignoreCase (endExprs o false)) := by
  intro cur x hx hne
  refine List.eq_nil_iff_forall_not_mem.2 fun cur' hmem => ?_
  have hend : EndsAt o false cur.rest :=
    ((mem_ends_endExprs _ _ _ _ _).1 hmem).imp And.right fun h => ⟨h.1, h.2.1⟩
  exact hne (hend.atSlash x hx)

/-! ## What is read behind a text -/

/-- The group of one value that is recorded is the value. -/
theorem groups_recorded {cur : Cursor} (h : cur.kept = []) (v : List Char) :
    (recorded cur 1 (some v)).groups 1 = [some v] := by
  have hkept := kept_recorded 0 (some v) cur
  rw [h] at hkept
  exact groups_of_kept hkept

section

variable {t name : List Char} {d : Char} {u : List Char} {us : List (List Char)} {path : String}

/-- Values with the lead before each are read as they are. -/
theorem groups?_repeated_lead (pattern : String) (o : Options) (hd : d = '/' ∨ d = '.')
    (hus : ∀ v ∈ u :: us, (Capture.repeatedParameter name (some d)).Fits v ∧ '/' ∉ v)
    (hpath : path.toList = t ++ (d :: (u ++ us.flatMap (d :: ·)))) :
    (compiledDefault pattern o
        (withLiteral t [.capture (.repeatedParameter name (some d))])).groups? path =
      some [some (String.ofList (u ++ us.flatMap (d :: ·)))] := by
  have hc : (Capture.repeatedParameter name (some d)).IsDefault :=
    ⟨nofun, by rintro x ⟨⟩; exact hd⟩
  let c := Capture.repeatedParameter name (some d)
  let v := u ++ us.flatMap (d :: ·)
  let steps := (withLiteral t [.capture c]).map Token.defaultStep
  -- The place where the values start.
  let start := ((Cursor.atStart path.toList).reading t (d :: v)).reading [d] v
  have hslash : endsInSlash steps = false := endsInSlash_withLiteral t c
  have hmatched : matchedSteps o steps = steps := matchedSteps_withLiteral o t c
  have hexprs : stepExprs 0 steps = literalExprs t ++ (literalExprs [d] ++
      [.group 1 (Regex.sequence (c.valueExprs c.defaultExpr))]) := stepExprs_withLiteral t c 0
  have hinner : ∀ w ∈ u :: us, c.Fits w ∧ ∀ x ∈ w, x ≠ d ∧ x ≠ '/' := by
    intro w hw
    obtain ⟨hfits, hnot⟩ := hus w hw
    exact ⟨hfits, fun x hx => ⟨ne_of_mem_of_not_mem hx (hfits.delimiter_not_mem rfl),
      ne_of_mem_of_not_mem hx hnot⟩⟩
  have hend : Places.DeadBefore (fun x => x ≠ d ∧ x ≠ '/') fun m =>
      endsAll (!o.sensitive) (endExprs o false) (m.keep 1 start) :=
    fun m x hx hne => deadBefore_endExprs _ o (m.keep 1 start) x hx hne.2
  have hfirst : (ends (!o.sensitive) (program o steps).expr (.atStart path.toList)).head? =
      some ((start.reading v []).keep 1 start) := by
    rw [ends_program, hmatched, hexprs, hslash, Regex.endsAll_append, List.flatMap_assoc,
      head?_literal _ _ hpath, Regex.endsAll_append, List.flatMap_assoc,
      head?_literal _ v rfl, Regex.endsAll_singleton]
    show (((ends _ (Regex.sequence (c.valueExprs c.defaultExpr)) start).map _).flatMap _).head? = _
    rw [Regex.ends_sequence, List.flatMap_map]
    refine c.head?_valueExprs hc rfl rfl rfl (fun h => h.1 rfl) hend hinner rfl ?_
    exact head?_endExprs _ o false rfl
  have hgroups : ((start.reading v []).keep 1 start).groups 1 = [some v] := by
    rw [keep_reading (List.append_nil v).symm 1]
    exact groups_recorded rfl v
  have hcount : groupCount steps = 1 := groupCount_withLiteral t c
  rw [Compiled.groups?, Regex.matchStart_eq_head?]
  show ((ends (!o.sensitive) (program o steps).expr _).head?.map fun m =>
    (m.groups (groupCount steps)).map (Option.map String.ofList)) = _
  rw [hfirst, hcount, Option.map_some, hgroups]
  rfl

/-- Without a lead between them values are one part, and a repeated parameter reads every part. -/
theorem takes_repeated_none {ignoreCase : Bool} {w : List Char} {v : Option (List Char)} :
    (Capture.repeatedParameter name none).Takes ignoreCase
        (Capture.repeatedParameter name none).defaultExpr w v ↔ IsPart w ∧ v = some w := by
  have hc : (Capture.repeatedParameter name none).IsDefault := ⟨nofun, nofun⟩
  have hfits : ∀ u, (Capture.repeatedParameter name none).Fits u ↔ IsPart u := fun u => Iff.rfl
  constructor
  · intro h
    cases v with
    | none => cases h.1
    | some v =>
      obtain ⟨rfl, u, us, hu, hus, -, rfl⟩ := h
      simp only [hc.spells, hfits] at hu hus
      refine ⟨⟨List.append_ne_nil_of_left_ne_nil hu.1 _, ?_⟩, rfl⟩
      intro hmem
      rcases List.mem_append.1 hmem with hmem | hmem
      · exact hu.2 hmem
      · obtain ⟨u', hu', hmem⟩ := List.mem_flatMap.1 hmem
        exact (hus u' hu').2 hmem
  · rintro ⟨hw, rfl⟩
    exact ⟨rfl, w, [], (hc.spells _ _).2 ((hfits w).2 hw), nofun, fun _ => rfl,
      (List.append_nil w).symm⟩

/-- A text before a repeated parameter without a lead leaves it one part. -/
theorem derives_repeated_none {ignoreCase : Bool} {w : List Char}
    {vs : List (Option (List Char))} :
    Derives ignoreCase
        ((withLiteral t [.capture (.repeatedParameter name none)]).map Token.defaultStep) w vs ↔
      ∃ x v, w = x ++ v ∧ SameText ignoreCase t x ∧ IsPart v ∧ vs = [some v] := by
  rw [derives_withLiteral, derives_literal_iff]
  simp only [List.map_cons, Token.defaultStep, derives_capture_iff, takes_repeated_none]
  constructor
  · rintro ⟨x, _, rfl, hx, v, _, _, _, rfl, rfl, ⟨hv, rfl⟩, ⟨⟩⟩
    exact ⟨x, v, by rw [List.append_nil], hx, hv, rfl⟩
  · rintro ⟨x, v, rfl, hx, hv, rfl⟩
    exact ⟨x, v, rfl, hx, v, [], _, [], (List.append_nil v).symm, rfl, ⟨hv, rfl⟩, .nil⟩

/-- Where there is no lead, only the first value is read, and a match that must reach the end of the
path fails if there are others. -/
theorem groups?_repeated_none (pattern : String) (o : Options) (hus : ∀ v ∈ u :: us, IsPart v)
    (hpath : path.toList = t ++ (u ++ slashed us)) :
    (compiledDefault pattern o
        (withLiteral t [.capture (.repeatedParameter name none)])).groups? path =
      if o.toEnd = true ∧ us ≠ [] then none else some [some (String.ofList u)] := by
  let c := Capture.repeatedParameter name none
  let p := compiledDefault pattern o (withLiteral t [.capture c])
  have hc : c.IsDefault := ⟨nofun, nofun⟩
  have hfaithful : p.Faithful := faithful_compiledDefault pattern o (isDefault_withLiteral t hc)
  have hslash : endsInSlash p.steps = false := endsInSlash_withLiteral t c
  have hmatched : matchedSteps o p.steps = (withLiteral t [.capture c]).map Token.defaultStep :=
    matchedSteps_withLiteral o t c
  rw [List.forall_mem_cons] at hus
  -- However the path is derived, the first value is read and the others are left.
  have hread : ∀ w rest vs, path.toList = w ++ rest →
      Derives (!o.sensitive) (matchedSteps o p.steps) w vs →
      EndsAt o (endsInSlash p.steps) rest → vs = [some u] ∧ rest = slashed us := by
    intro w rest vs hsplit hw hrest
    rw [hmatched] at hw
    rw [hslash] at hrest
    obtain ⟨x, v, rfl, hx, hv, rfl⟩ := derives_repeated_none.1 hw
    rw [hpath, List.append_assoc] at hsplit
    obtain ⟨-, hsplit⟩ := List.append_inj hsplit hx.length_eq
    have hothers : AtSlash (slashed us) := by
      have := atSlash_slashed us atSlash_nil
      rwa [List.append_nil] at this
    obtain ⟨rfl, rfl⟩ := part_append_inj hus.1.2 hv.2 hothers hrest.atSlash hsplit
    exact ⟨rfl, rfl⟩
  split
  · next hmore =>
    -- The other values stand between what is read and the end of the path.
    rw [Option.eq_none_iff_forall_ne_some]
    intro gs hgs
    obtain ⟨w, rest, vs, hsplit, hw, hrest, -⟩ := hfaithful.groups?_sound hgs
    obtain ⟨-, rfl⟩ := hread w rest vs hsplit hw hrest
    obtain ⟨v, us, rfl⟩ := List.exists_cons_of_ne_nil hmore.2
    have hv : v ≠ [] := (hus.2 v List.mem_cons_self).1
    have hstop : EndsAt o _ _ := hrest
    rw [EndsAt, StopsAt, if_pos hmore.1, slashed_cons] at hstop
    simp [hv] at hstop
  · next hnot =>
    have hw : Derives (!o.sensitive) (matchedSteps o p.steps) (t ++ u) [some u] := by
      rw [hmatched]
      exact derives_repeated_none.2 ⟨t, u, rfl, .refl _ t, hus.1, rfl⟩
    have hend : EndsAt o (endsInSlash p.steps) (slashed us) := by
      rw [hslash]
      cases us with
      | nil => exact .inl (stopsAt_nil o false)
      | cons v us =>
        refine .inl ?_
        rw [StopsAt, if_neg fun hend => hnot ⟨hend, List.cons_ne_nil v us⟩]
        exact .inr (.inr rfl)
    exact hfaithful.groups?_eq (hpath.trans (List.append_assoc ..).symm) hw hend
      fun w rest vs hsplit hw hrest => (hread w rest vs hsplit hw hrest).1

end

/-! ## Every written path -/

/-- The elements of a sequence stand behind the text and the lead, with the delimiter between
them. -/
theorem Compiled.toList_toPath_repeated {pattern : String} {o : Options} {t name : List Char}
    {lead : Option Char} (hlead : IsLead lead) {params : Mapping} {item : Value}
    {items : List Value}
    (hitems : (params.getD (.str (String.ofList name))).sequence? = some (item :: items))
    {path : String} (hpath : (compiledDefault pattern o
      (withLiteral t [.capture (.repeatedParameter name lead)])).toPath params = .ok path) :
    path.toList = t ++ (lead.toList ++ (encodeElement item ++
        (items.map encodeElement).flatMap ((Capture.repeatedParameter name lead).delimiter :: ·))) ∧
      ∀ u ∈ encodeElement item :: items.map encodeElement,
        (Capture.repeatedParameter name lead).Fits u := by
  have hc : (Capture.repeatedParameter name lead).IsDefault := ⟨nofun, hlead⟩
  obtain ⟨w, hw, hsplit⟩ := (writeSteps_withLiteral t _).1 (toPath_eq_ok.1 hpath)
  obtain ⟨u, _, hu, ⟨⟩, rfl⟩ := writeSteps_cons_eq_ok.1 hw
  cases writeCapture_eq_ok.1 hu with
  | absent hnull hoptional => cases hoptional
  | nothing hnull hoptional hnamed hempty => cases hnamed
  | empty hnull hempty hrepeated hoptional => cases hoptional
  | single hnull hscalar hmatches => cases hitems.symm.trans hscalar
  | @elements item' items' hnull hsome hrepeated hmatches =>
    obtain ⟨rfl, rfl⟩ := List.cons.inj (Option.some.inj (hitems.symm.trans hsome))
    refine ⟨by rw [hsplit, List.append_nil, List.flatMap_map]; rfl, fun u hu => ?_⟩
    obtain ⟨i, hi, rfl⟩ := List.mem_map.1 (List.map_cons ▸ hu)
    exact (hc.spells _ _).1 ((matchesAll_default _ _).1 (hmatches i hi))

/-- The elements of a sequence are read back with the delimiter between them, if the repeated
parameter has a lead or there is one element only. Without a lead a path with more elements is not
matched, or only its first element is read where a match need not reach the end of the path. -/
theorem compile_groups?_repeated [CharacterNames] {s name : List Char}
    (hs : ∀ x ∈ s, Segment.isPlain x = true ∨ x = '/') (hne : name ≠ [])
    (hname : ∀ x ∈ name, Text.isWord x = true) (o : Options) :
    ∃ p c, compile (String.ofList (s ++ ':' :: (name ++ ['+']))) o = .ok p ∧ p.captures = [c] ∧
      c.key = .named (String.ofList name) ∧ c.lead = leadOf s ∧
      ∀ (params : Mapping) (item : Value) (items : List Value) (path : String),
        (params.getD c.key.toValue).sequence? = some (item :: items) →
        p.toPath params = .ok path →
        (c.lead ≠ none ∨ items = [] → p.groups? path = some [some (String.ofList
          ([c.delimiter].intercalate ((item :: items).map Compiled.encodeElement)))]) ∧
        (c.lead = none → items ≠ [] → p.groups? path =
          if o.toEnd then none else some [some (String.ofList (Compiled.encodeElement item))]) := by
  have hwell : (Segment.parameter name none .repeated).WellFormed := ⟨⟨hne, hname⟩, nofun⟩
  have hlead : IsLead (leadOf s) := by
    intro x hx
    simpa using (Option.filter_eq_some_iff.1 hx).2
  obtain ⟨t, -, hparse⟩ := parse_repeated hwell hs
  generalize leadOf s = lead at hlead hparse ⊢
  let c := Capture.repeatedParameter name lead
  have hc : c.IsDefault := ⟨nofun, hlead⟩
  let p := compiledDefault (String.ofList (s ++ ':' :: (name ++ ['+']))) o
    (withLiteral t [.capture c])
  have hcompile : compile (String.ofList (s ++ ':' :: (name ++ ['+']))) o = .ok p :=
    compile_default o (by rw [String.toList_ofList]; exact hparse) (isDefault_withLiteral t hc)
  have hcaptures : captures (withLiteral t [.capture c]) = [c] := by
    unfold withLiteral
    split <;> rfl
  refine ⟨p, c, hcompile, hcaptures, rfl, rfl, fun params item items path hitems hpath => ?_⟩
  obtain ⟨hwritten, hfits⟩ := Compiled.toList_toPath_repeated hlead hitems hpath
  rw [List.map_cons, intercalate_singleton_cons]
  cases lead with
  | some d =>
    have hslash : ∀ u ∈ Compiled.encodeElement item :: items.map Compiled.encodeElement,
        c.Fits u ∧ '/' ∉ u := by
      intro u hu
      obtain ⟨i, -, rfl⟩ := List.mem_map.1 (List.map_cons ▸ hu)
      exact ⟨hfits _ hu, Text.Percent.not_mem_encodeChars (by decide) (by decide) (by decide) _⟩
    exact ⟨fun _ => groups?_repeated_lead _ o (hlead d rfl) hslash hwritten, nofun⟩
  | none =>
    have hread : p.groups? path = _ := groups?_repeated_none _ o hfits hwritten
    refine ⟨fun h => ?_, fun _ hmore => ?_⟩
    · obtain rfl : items = [] := h.resolve_left fun hne => hne rfl
      rw [if_neg fun h => h.2 rfl] at hread
      rw [List.map_nil, List.flatMap_nil, List.append_nil]
      exact hread
    · have hmap : items.map Compiled.encodeElement ≠ [] := by simpa using hmore
      simpa [hmap] using hread

/-- The elements of `/tags/:tag+` are read back, each with its escapes, even where a match need not
reach the end of the path. -/
theorem compile_groups?_repeated_tags :
    ∃ p, compile "/tags/:tag+" ⟨false, false, false⟩ = .ok p ∧
      p.toPath [(.str "tag", .list [.int 1, .str "a/b", .str "c d"])] = .ok "/tags/1/a%2Fb/c%20d" ∧
      p.groups? "/tags/1/a%2Fb/c%20d" = some [some "1/a%2Fb/c%20d"] := by
  let params : Mapping := [(.str "tag", .list [.int 1, .str "a/b", .str "c d"])]
  have hrun : ((compile "/tags/:tag+" ⟨false, false, false⟩).toOption.map fun p =>
      (p.toPath params).toOption) = some (some "/tags/1/a%2Fb/c%20d") := by decide +kernel
  obtain ⟨p, hp, hpath⟩ := Option.map_eq_some_iff.1 hrun
  have hplain : "/tags/".toList.all (fun x => Segment.isPlain x || x == '/') = true := by decide
  have hword : "tag".toList.all Text.isWord = true := by decide
  obtain ⟨p', c, hp', -, hkey, hlead, hread⟩ := compile_groups?_repeated
    (fun x hx => by simpa using List.all_eq_true.1 hplain x hx) (show "tag".toList ≠ [] by decide)
    (List.all_eq_true.1 hword) ⟨false, false, false⟩
  obtain rfl := Except.ok.inj (hp'.symm.trans (toOption_eq_some.1 hp))
  obtain ⟨hall, -⟩ := hread params (.int 1) [.str "a/b", .str "c d"] _ (by rw [hkey]; rfl)
    (toOption_eq_some.1 hpath)
  refine ⟨p', hp', toOption_eq_some.1 hpath, ?_⟩
  rw [hall (.inl (by rw [hlead]; decide)), Capture.delimiter, hlead]
  decide +kernel

/-- Right behind a text a repeated parameter has no lead: two elements are written with a slash
between them, and the path is not matched. -/
theorem toPath_repeated_unmatched :
    ∃ p, compile "/a:x+" ⟨false, false, true⟩ = .ok p ∧
      p.toPath [(.str "x", .list [.str "1", .str "2"])] = .ok "/a1/2" ∧
      p.groups? "/a1/2" = none ∧ p.groups? "/a1" = some [some "1"] := by
  have hrun : ((compile "/a:x+" ⟨false, false, true⟩).toOption.map fun p =>
      ((p.toPath [(.str "x", .list [.str "1", .str "2"])]).toOption, p.groups? "/a1/2",
        p.groups? "/a1")) = some (some "/a1/2", none, some [some "1"]) := by decide +kernel
  obtain ⟨p, hp, hfacts⟩ := Option.map_eq_some_iff.1 hrun
  obtain ⟨hpath, hfacts⟩ := Prod.mk.inj hfacts
  obtain ⟨hnone, hone⟩ := Prod.mk.inj hfacts
  exact ⟨p, toOption_eq_some.1 hp, toOption_eq_some.1 hpath, hnone, hone⟩

end SiteRouter.Pattern
