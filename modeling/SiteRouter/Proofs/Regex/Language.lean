import SiteRouter.Proofs.Regex.Ends

/-!
# The language of a regular expression

An expression without groups, anchors, references and conditions is regular: the texts that it reads
do not depend on what stands around them. `Spells` gives these texts by recursion on the expression,
without any order or position, and `ends_reads` shows that the places a regular expression can reach
are exactly those after a text that it spells. In particular a bound on the number of rounds and the
rule that an empty round ends a repetition lose no text.
-/

namespace SiteRouter.Regex

/-! ## Reading a text -/

/-- The place after a text, with what follows it. -/
def Cursor.reading (c : Cursor) (w rest : List Char) : Cursor :=
  { c with pos := c.pos + w.length, prev := w.getLast?.or c.prev, rest := rest }

@[simp] theorem Cursor.reading_pos (c : Cursor) (w rest : List Char) :
    (c.reading w rest).pos = c.pos + w.length := rfl

@[simp] theorem Cursor.reading_rest (c : Cursor) (w rest : List Char) :
    (c.reading w rest).rest = rest := rfl

@[simp] theorem Cursor.reading_kept (c : Cursor) (w rest : List Char) :
    (c.reading w rest).kept = c.kept := rfl

/-- Reading nothing changes nothing. -/
@[simp] theorem Cursor.reading_nil (c : Cursor) : c.reading [] c.rest = c := by
  simp [reading]

/-- Reading two texts in turn is reading both together. -/
@[simp] theorem Cursor.reading_reading (c : Cursor) (u v rest rest' : List Char) :
    (c.reading u rest').reading v rest = c.reading (u ++ v) rest := by
  simp [reading, Nat.add_assoc, List.getLast?_append, Option.or_assoc]

/-- Only reading nothing stays in place. -/
theorem Cursor.pos_reading_ne (c : Cursor) {w : List Char} (hw : w ≠ []) (rest : List Char) :
    (c.reading w rest).pos ≠ c.pos := by
  have := List.length_pos_iff.2 hw
  rw [reading_pos]
  omega

namespace Places

/-- The places are those after a text of the language. -/
def Reads (e : Places) (L : List Char → Prop) : Prop :=
  ∀ c c', c' ∈ e c ↔ ∃ w rest, c.rest = w ++ rest ∧ L w ∧ c' = c.reading w rest

namespace Reads

variable {e next : Places} {L M : List Char → Prop}

/-- The same places read an equivalent language. -/
theorem congr (h : e.Reads L) (hLM : ∀ w, L w ↔ M w) : e.Reads M := by
  intro c c'
  simp only [h c c', hLM]

/-- Staying in place reads nothing. -/
theorem stay : Reads (fun c => [c]) fun w => w = [] := by
  intro c c'
  constructor
  · intro h
    rw [List.mem_singleton] at h
    exact ⟨[], c.rest, rfl, rfl, by rw [h, Cursor.reading_nil]⟩
  · rintro ⟨w, rest, hc, rfl, rfl⟩
    rw [List.nil_append] at hc
    rw [← hc, Cursor.reading_nil]
    exact List.mem_singleton_self c

/-- Going on from every place reads one text and then another. -/
theorem andThen (h : e.Reads L) (h' : next.Reads M) :
    Reads (fun c => (e c).flatMap next) fun w => ∃ u v, w = u ++ v ∧ L u ∧ M v := by
  intro c c'
  rw [List.mem_flatMap]
  constructor
  · rintro ⟨m, hm, hc'⟩
    obtain ⟨u, rest, hc, hu, rfl⟩ := (h c m).1 hm
    obtain ⟨v, rest', hrest, hv, rfl⟩ := (h' _ c').1 hc'
    rw [Cursor.reading_rest] at hrest
    refine ⟨u ++ v, rest', ?_, ⟨u, v, rfl, hu, hv⟩, ?_⟩
    · rw [hc, hrest, List.append_assoc]
    · rw [Cursor.reading_reading]
  · rintro ⟨w, rest, hc, ⟨u, v, rfl, hu, hv⟩, rfl⟩
    rw [List.append_assoc] at hc
    refine ⟨c.reading u (v ++ rest), (h c _).2 ⟨u, v ++ rest, hc, hu, rfl⟩, ?_⟩
    exact (h' _ _).2 ⟨v, rest, rfl, hv, by rw [Cursor.reading_reading]⟩

/-- One character that passes a test. -/
theorem one (test : Char → Bool) : (Places.one test).Reads fun w => ∃ x, w = [x] ∧ test x := by
  intro c c'
  unfold Places.one Cursor.advance
  cases hc : c.rest with
  | nil => simp
  | cons x rest =>
    dsimp only
    constructor
    · intro h
      split at h
      · next hx =>
        rw [Option.toList_some, List.mem_singleton] at h
        exact ⟨[x], rest, rfl, ⟨x, rfl, hx⟩, by rw [h]; simp [Cursor.reading]⟩
      · simp at h
    · rintro ⟨w, rest', hw, ⟨y, rfl, hy⟩, rfl⟩
      obtain ⟨rfl, rfl⟩ : x = y ∧ rest = rest' := by simpa using hw
      simp [hy, Cursor.reading]

/-- A fixed number of rounds. -/
theorem times (h : e.Reads L) (n : Nat) :
    (Places.times e n).Reads fun w =>
      ∃ us : List (List Char), us.length = n ∧ (∀ u ∈ us, L u) ∧ w = us.flatten := by
  -- The first round reads the first text, and the rounds after it the others.
  induction n with
  | zero =>
    refine stay.congr fun w => ⟨fun hw => ⟨[], rfl, by simp, hw⟩, ?_⟩
    rintro ⟨us, hus, -, rfl⟩
    rw [List.length_eq_zero_iff] at hus
    rw [hus, List.flatten_nil]
  | succ n ih =>
    refine (h.andThen ih).congr fun w => ⟨?_, ?_⟩
    · rintro ⟨u, v, rfl, hu, us, hus, hL, rfl⟩
      exact ⟨u :: us, by simp [hus], by simpa using ⟨hu, hL⟩, by simp⟩
    · rintro ⟨us, hus, hL, rfl⟩
      obtain ⟨u, us, rfl⟩ := List.exists_cons_of_length_eq_add_one hus
      rw [List.forall_mem_cons] at hL
      exact ⟨u, us.flatten, by simp, hL.1, us, by simpa using hus, hL.2, rfl⟩

/-- A round, and what follows it if the round read something. -/
theorem thenMore (h : e.Reads L) (h' : next.Reads M) :
    (Places.thenMore e next).Reads fun w =>
      ∃ u v, w = u ++ v ∧ L u ∧ if u = [] then v = [] else M v := by
  intro c c'
  unfold Places.thenMore
  rw [List.mem_flatMap]
  constructor
  · rintro ⟨m, hm, hc'⟩
    obtain ⟨u, rest, hc, hu, rfl⟩ := (h c m).1 hm
    -- Whether the round read something is seen by whether the place has moved.
    by_cases hnil : u = []
    · subst hnil
      simp only [Cursor.reading_pos, List.length_nil, Nat.add_zero, if_true,
        List.mem_singleton] at hc'
      exact ⟨[], rest, hc, ⟨[], [], rfl, hu, rfl⟩, hc'⟩
    · rw [if_neg (c.pos_reading_ne hnil rest)] at hc'
      obtain ⟨v, rest', hrest, hv, rfl⟩ := (h' _ c').1 hc'
      rw [Cursor.reading_rest] at hrest
      refine ⟨u ++ v, rest', ?_, ⟨u, v, rfl, hu, ?_⟩, ?_⟩
      · rw [hc, hrest, List.append_assoc]
      · rwa [if_neg hnil]
      · rw [Cursor.reading_reading]
  · rintro ⟨w, rest, hc, ⟨u, v, rfl, hu, hv⟩, rfl⟩
    rw [List.append_assoc] at hc
    refine ⟨c.reading u (v ++ rest), (h c _).2 ⟨u, v ++ rest, hc, hu, rfl⟩, ?_⟩
    by_cases hnil : u = []
    · subst hnil
      rw [if_pos rfl] at hv
      subst hv
      simp
    · rw [if_neg hnil] at hv
      rw [if_neg (c.pos_reading_ne hnil (v ++ rest))]
      exact (h' _ _).2 ⟨v, rest, rfl, hv, by rw [Cursor.reading_reading]⟩

/-- Texts of a language one after the other, at most the given number of them. -/
def AtMost (L : List Char → Prop) (n : Nat) (w : List Char) : Prop :=
  ∃ us : List (List Char), us.length ≤ n ∧ (∀ u ∈ us, L u) ∧ w = us.flatten

/-- One more round: nothing, or a text and then at most the given number of texts unless that text
was empty. -/
theorem atMost_succ {n : Nat} {w : List Char} :
    AtMost L (n + 1) w ↔
      w = [] ∨ ∃ u v, w = u ++ v ∧ L u ∧ if u = [] then v = [] else AtMost L n v := by
  constructor
  · rintro ⟨us, hlen, hL, rfl⟩
    -- The first text that is not empty makes the round; those before it read nothing.
    induction us with
    | nil => exact .inl rfl
    | cons u us ih =>
      rw [List.forall_mem_cons] at hL
      rw [List.length_cons] at hlen
      by_cases hnil : u = []
      · subst hnil
        simpa using ih (by omega) hL.2
      · refine .inr ⟨u, us.flatten, by simp, hL.1, ?_⟩
        rw [if_neg hnil]
        exact ⟨us, by omega, hL.2, rfl⟩
  · rintro (rfl | ⟨u, v, rfl, hu, hv⟩)
    · exact ⟨[], by simp, by simp, rfl⟩
    · split at hv
      · next hnil =>
        subst hnil hv
        exact ⟨[[]], by simp, by simpa using hu, rfl⟩
      · obtain ⟨us, hlen, hL, rfl⟩ := hv
        exact ⟨u :: us, by simpa using hlen, by simpa using ⟨hu, hL⟩, by simp⟩

/-- At most a number of texts, where that number is none. -/
theorem atMost_zero {w : List Char} : AtMost L 0 w ↔ w = [] := by
  constructor
  · rintro ⟨us, hlen, -, rfl⟩
    rw [Nat.le_zero, List.length_eq_zero_iff] at hlen
    rw [hlen, List.flatten_nil]
  · rintro rfl
    exact ⟨[], Nat.le_refl 0, by simp, rfl⟩

/-- At most a number of rounds, whatever the order of preference. -/
theorem greedy (h : e.Reads L) (n : Nat) : (Places.greedy e n).Reads (AtMost L n) := by
  induction n with
  | zero => exact stay.congr fun w => atMost_zero.symm
  | succ n ih =>
    intro c c'
    simp only [Places.greedy, List.mem_append, h.thenMore ih c c', stay c c', atMost_succ]
    grind

theorem lazily (h : e.Reads L) (n : Nat) : (Places.lazily e n).Reads (AtMost L n) := by
  induction n with
  | zero => exact stay.congr fun w => atMost_zero.symm
  | succ n ih =>
    intro c c'
    have hstay := stay c c'
    rw [List.mem_singleton] at hstay
    simp only [Places.lazily, List.mem_cons, h.thenMore ih c c', hstay, atMost_succ]
    grind

end Reads

end Places

/-! ## Regular expressions and the texts they spell -/

/-- The texts of a repetition. -/
def Repeats (L : List Char → Prop) (min : Nat) (max : Option Nat) (w : List Char) : Prop :=
  ∃ us : List (List Char), min ≤ us.length ∧ (∀ m, max = some m → us.length ≤ m) ∧
    (∀ u ∈ us, L u) ∧ w = us.flatten

/-- The texts that an expression reads, wherever they stand; those of a group are those of its
expression. -/
def Spells (ignoreCase : Bool) : Regex → List Char → Prop
  | .empty => fun w => w = []
  | .char n => fun w => ∃ x, w = [x] ∧ fitsCode ignoreCase n x
  | .notChar n => fun w => ∃ x, w = [x] ∧ !fitsCode ignoreCase n x
  | .any => fun w => ∃ x, w = [x] ∧ x != '\n'
  | .set s => fun w => ∃ x, w = [x] ∧ s.contains ignoreCase x
  | .seq r s => fun w => ∃ u v, w = u ++ v ∧ Spells ignoreCase r u ∧ Spells ignoreCase s v
  | .alt r s => fun w => Spells ignoreCase r w ∨ Spells ignoreCase s w
  | .group _ r => Spells ignoreCase r
  | .repeated r min max _ => Repeats (Spells ignoreCase r) min max
  | .anchor _ | .backref _ | .atomic _ | .ahead _ => fun _ => False

/-- Whether what an expression reads depends on nothing but the expression, and nothing is kept. -/
def IsRegular : Regex → Prop
  | .empty | .char _ | .notChar _ | .any | .set _ => True
  | .seq r s | .alt r s => IsRegular r ∧ IsRegular s
  | .repeated r min max mode =>
    IsRegular r ∧ (∀ m, max = some m → min ≤ m) ∧ mode ≠ .possessive
  | .anchor _ | .backref _ | .group _ _ | .atomic _ | .ahead _ => False

/-- A repetition of single characters reads the texts of such characters. -/
theorem repeats_one (test : Char → Bool) (min : Nat) (w : List Char) :
    Repeats (fun u => ∃ x, u = [x] ∧ test x) min none w ↔
      min ≤ w.length ∧ ∀ x ∈ w, test x = true := by
  constructor
  · rintro ⟨us, hmin, -, hus, rfl⟩
    have hchars : us.flatten.length = us.length ∧ ∀ x ∈ us.flatten, test x = true := by
      clear hmin
      induction us with
      | nil => simp
      | cons u us ih =>
        rw [List.forall_mem_cons] at hus
        obtain ⟨x, rfl, hx⟩ := hus.1
        have hrest := ih hus.2
        rw [List.flatten_cons, List.singleton_append, List.forall_mem_cons]
        exact ⟨by rw [List.length_cons, List.length_cons, hrest.1], hx, hrest.2⟩
    exact ⟨by omega, hchars.2⟩
  · rintro ⟨hmin, hw⟩
    refine ⟨w.map ([·]), by rwa [List.length_map], nofun, ?_, ?_⟩
    · intro u hu
      obtain ⟨x, hx, rfl⟩ := List.mem_map.1 hu
      exact ⟨x, rfl, hw x hx⟩
    · rw [← List.flatMap_def, List.flatMap_singleton']

/-- Texts without the empty ones are no more than their characters. -/
theorem exists_nonempty_texts (us : List (List Char)) :
    ∃ vs : List (List Char), (∀ v ∈ vs, v ∈ us) ∧ vs.length ≤ us.length ∧
      vs.length ≤ us.flatten.length ∧ vs.flatten = us.flatten := by
  induction us with
  | nil => exact ⟨[], by simp⟩
  | cons u us ih =>
    obtain ⟨vs, hmem, hlen, hchars, hflat⟩ := ih
    by_cases hnil : u = []
    · subst hnil
      exact ⟨vs, fun v hv => List.mem_cons_of_mem _ (hmem v hv), by simp; omega, hchars, hflat⟩
    · have := List.length_pos_iff.2 hnil
      refine ⟨u :: vs, ?_, by simpa, ?_, by simp [hflat]⟩
      · intro v hv
        rcases List.mem_cons.1 hv with rfl | hv
        · exact List.mem_cons_self
        · exact List.mem_cons_of_mem _ (hmem v hv)
      · rw [List.flatten_cons, List.length_append, List.length_cons]
        omega

/-- The texts of a repetition are those of the fixed rounds, and of later rounds that each read
something. -/
theorem Repeats.split {L : List Char → Prop} {min : Nat} {max : Option Nat} {w : List Char}
    (h : Repeats L min max w) :
    ∃ us vs : List (List Char), w = us.flatten ++ vs.flatten ∧ us.length = min ∧
      (∀ u ∈ us, L u) ∧ (∀ v ∈ vs, L v) ∧ vs.length ≤ vs.flatten.length ∧
      ∀ m, max = some m → vs.length ≤ m - min := by
  obtain ⟨us, hmin, hlen, hL, rfl⟩ := h
  obtain ⟨vs, hmem, hvs, hchars, hflat⟩ := exists_nonempty_texts (us.drop min)
  rw [← hflat] at hchars
  refine ⟨us.take min, vs, ?_, ?_, fun u hu => hL u (List.mem_of_mem_take hu),
    fun v hv => hL v (List.mem_of_mem_drop (hmem v hv)), hchars, fun m hm => ?_⟩
  · rw [hflat, ← List.flatten_append, List.take_append_drop]
  · rw [List.length_take]
    omega
  · have := hlen m hm
    rw [List.length_drop] at hvs
    omega

/-- A repetition reaches the places after its texts if its later rounds reach those after at most
the number of texts that are left. -/
theorem Places.Reads.repeated {e : Places} {L : List Char → Prop} (h : e.Reads L)
    {rounds : Nat → Places} (hr : ∀ n, (rounds n).Reads (AtMost L n)) {min : Nat}
    {max : Option Nat} (hmax : ∀ m, max = some m → min ≤ m) :
    Places.Reads
      (fun c => (Places.times e min c).flatMap fun c' => rounds (Matcher.roundsLeft min max c') c')
      (Repeats L min max) := by
  intro c c'
  rw [List.mem_flatMap]
  constructor
  · rintro ⟨m, hm, hc'⟩
    obtain ⟨u, rest, hc, ⟨us, hus, hL, rfl⟩, rfl⟩ := (h.times min c m).1 hm
    obtain ⟨v, rest', hrest, ⟨vs, hvs, hL', rfl⟩, rfl⟩ := (hr _ _ c').1 hc'
    rw [Cursor.reading_rest] at hrest
    refine ⟨us.flatten ++ vs.flatten, rest', ?_, ⟨us ++ vs, ?_, ?_, ?_, by simp⟩, ?_⟩
    · rw [hc, hrest, List.append_assoc]
    · simp [hus]
    · intro m hm
      have := hmax m hm
      simp only [Matcher.roundsLeft, hm] at hvs
      simp only [List.length_append]
      omega
    · intro u hu
      exact (List.mem_append.1 hu).elim (hL u) (hL' u)
    · rw [Cursor.reading_reading]
  · rintro ⟨w, rest, hc, hw, rfl⟩
    obtain ⟨us, vs, rfl, hus, hL, hL', hchars, hmax⟩ := hw.split
    rw [List.append_assoc] at hc
    refine ⟨c.reading us.flatten (vs.flatten ++ rest),
      (h.times min c _).2 ⟨_, _, hc, ⟨us, hus, hL, rfl⟩, rfl⟩,
      (hr _ _ _).2 ⟨vs.flatten, rest, rfl, ⟨vs, ?_, hL', rfl⟩, by rw [Cursor.reading_reading]⟩⟩
    cases max with
    | none =>
      -- Without a bound there is a round for each character that is left.
      simp only [Matcher.roundsLeft, Cursor.reading_rest, List.length_append]
      omega
    | some m => exact hmax m rfl

/-- A regular expression reaches exactly the places after the texts that it spells. -/
theorem ends_reads (ignoreCase : Bool) {r : Regex} (h : r.IsRegular) :
    (r.ends ignoreCase).Reads (r.Spells ignoreCase) := by
  induction r with
  | empty => exact .stay
  | char n => exact .one _
  | notChar n => exact .one _
  | any => exact .one _
  | set s => exact .one _
  | seq r s ihr ihs => exact (ihr h.1).andThen (ihs h.2)
  | alt r s ihr ihs =>
    intro c c'
    simp only [ends, List.mem_append, ihr h.1 c c', ihs h.2 c c', Spells]
    grind
  | repeated r min max mode ih =>
    cases mode with
    | greedy => exact (ih h.1).repeated (ih h.1).greedy h.2.1
    | lazy => exact (ih h.1).repeated (ih h.1).lazily h.2.1
    | possessive => exact absurd rfl h.2.2
  | anchor a => exact h.elim
  | backref n => exact h.elim
  | group n r => exact h.elim
  | atomic r => exact h.elim
  | ahead r => exact h.elim

/-! ## Expressions in turn -/

/-- The texts that expressions read one after the other. -/
def SpellsAll (ignoreCase : Bool) : List Regex → List Char → Prop
  | [] => fun w => w = []
  | r :: rs => fun w => ∃ u v, w = u ++ v ∧ Spells ignoreCase r u ∧ SpellsAll ignoreCase rs v

theorem isRegular_sequence {rs : List Regex} (h : ∀ r ∈ rs, r.IsRegular) :
    (sequence rs).IsRegular := by
  induction rs with
  | nil => trivial
  | cons r rs ih =>
    rw [List.forall_mem_cons] at h
    cases rs with
    | nil => exact h.1
    | cons s rs => exact ⟨h.1, ih h.2⟩

theorem isRegular_alternatives {rs : List Regex} (h : ∀ r ∈ rs, r.IsRegular) :
    (alternatives rs).IsRegular := by
  induction rs with
  | nil => trivial
  | cons r rs ih =>
    rw [List.forall_mem_cons] at h
    cases rs with
    | nil => exact h.1
    | cons s rs => exact ⟨h.1, ih h.2⟩

/-- Alternatives spell what one of them spells. -/
theorem spells_alternatives (ignoreCase : Bool) {rs : List Regex} (hne : rs ≠ [])
    (w : List Char) :
    (alternatives rs).Spells ignoreCase w ↔ ∃ r ∈ rs, r.Spells ignoreCase w := by
  induction rs with
  | nil => exact absurd rfl hne
  | cons r rs ih =>
    cases rs with
    | nil => simp [alternatives]
    | cons s rs =>
      show r.Spells ignoreCase w ∨ (alternatives (s :: rs)).Spells ignoreCase w ↔ _
      rw [ih (List.cons_ne_nil s rs)]
      simp

/-- A sequence spells what its members spell one after the other. -/
theorem spells_sequence (ignoreCase : Bool) (rs : List Regex) (w : List Char) :
    (sequence rs).Spells ignoreCase w ↔ SpellsAll ignoreCase rs w := by
  induction rs generalizing w with
  | nil => rfl
  | cons r rs ih =>
    cases rs with
    | nil => simp [sequence, SpellsAll]
    | cons s rs =>
      show (∃ u v, w = u ++ v ∧ Spells ignoreCase r u ∧
        Spells ignoreCase (sequence (s :: rs)) v) ↔ _
      simp only [ih]
      rfl

theorem spellsAll_append (ignoreCase : Bool) (rs ss : List Regex) (w : List Char) :
    SpellsAll ignoreCase (rs ++ ss) w ↔
      ∃ u v, w = u ++ v ∧ SpellsAll ignoreCase rs u ∧ SpellsAll ignoreCase ss v := by
  induction rs generalizing w with
  | nil =>
    constructor
    · intro hw
      exact ⟨[], w, rfl, rfl, hw⟩
    · rintro ⟨u, v, rfl, rfl, hv⟩
      exact hv
  | cons r rs ih =>
    simp only [List.cons_append, SpellsAll, ih]
    constructor
    · rintro ⟨u, v, rfl, hu, u', v', rfl, hu', hv'⟩
      exact ⟨u ++ u', v', by simp, ⟨u, u', rfl, hu, hu'⟩, hv'⟩
    · rintro ⟨_, v', rfl, ⟨u, u', rfl, hu, hu'⟩, hv'⟩
      exact ⟨u, u' ++ v', by simp, hu, u', v', rfl, hu', hv'⟩

/-- Regular expressions reach one after the other the places after the texts that they spell. -/
theorem endsAll_reads (ignoreCase : Bool) {rs : List Regex} (h : ∀ r ∈ rs, r.IsRegular) :
    (endsAll ignoreCase rs).Reads (SpellsAll ignoreCase rs) := by
  rw [← ends_sequence]
  exact (ends_reads ignoreCase (isRegular_sequence h)).congr fun w =>
    spells_sequence ignoreCase rs w

/-- A regular expression matches a whole text exactly if it spells it. -/
theorem matchesAll_iff_spells (ignoreCase : Bool) {r : Regex} (h : r.IsRegular)
    (cs : List Char) : r.matchesAll ignoreCase cs = true ↔ r.Spells ignoreCase cs := by
  rw [matchesAll_iff]
  constructor
  · rintro ⟨c', hc', hrest⟩
    obtain ⟨w, rest, hcs, hw, rfl⟩ := (ends_reads ignoreCase h _ _).1 hc'
    rw [Cursor.reading_rest] at hrest
    rw [hrest, List.append_nil] at hcs
    rwa [show cs = w from hcs]
  · intro hw
    exact ⟨(Cursor.atStart cs).reading cs [],
      (ends_reads ignoreCase h _ _).2 ⟨cs, [], by simp [Cursor.atStart], hw, rfl⟩, rfl⟩

end SiteRouter.Regex
