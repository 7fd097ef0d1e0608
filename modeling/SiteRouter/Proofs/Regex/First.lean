import SiteRouter.Proofs.Regex.Language

/-!
# The first place

A match returns the first place of `ends`. Where each part of an expression has a known first place,
so has the whole: the first place of a sequence is the first place of the second part from the first
place of the first (`head?_flatMap`). A part that can read one text only has one place, and a greedy
repetition of single characters reaches the end of the longest run first (`head?_repeated_one`).
-/

namespace SiteRouter.Regex

/-- The first place after going on from every place is that after the first one, if there is one. -/
theorem head?_flatMap {α β : Type} {l : List α} {f : α → List β} {a : α} {b : β}
    (hl : l.head? = some a) (ha : (f a).head? = some b) : (l.flatMap f).head? = some b := by
  cases l with
  | nil => cases hl
  | cons a' l =>
    cases hl
    rw [List.flatMap_cons, List.head?_append, ha, Option.some_or]

/-- The first place after going on from every place is the first one after one of them. -/
theorem exists_of_head?_flatMap {α β : Type} {l : List α} {f : α → List β} {b : β}
    (h : (l.flatMap f).head? = some b) : ∃ a ∈ l, (f a).head? = some b := by
  rw [List.head?_flatMap] at h
  exact List.exists_of_findSome?_eq_some h

/-- Where one place alone goes on to others, the first of these is the first of all. -/
theorem head?_flatMap_of_dead {α β : Type} {l : List α} {f : α → List β} {a : α} (ha : a ∈ l)
    (hdead : ∀ a' ∈ l, a' ≠ a → f a' = []) : (l.flatMap f).head? = (f a).head? := by
  induction l with
  | nil => cases ha
  | cons a' l ih =>
    rw [List.forall_mem_cons] at hdead
    rw [List.flatMap_cons, List.head?_append]
    by_cases heq : a' = a
    · subst heq
      cases hfirst : f a' with
      | cons b bs => rfl
      | nil =>
        have hrest : l.flatMap f = [] := by
          rw [List.flatMap_eq_nil_iff]
          intro a'' ha''
          by_cases heq : a'' = a'
          · rw [heq, hfirst]
          · exact hdead.2 a'' ha'' heq
        rw [hrest]
        rfl
    · rw [hdead.1 heq]
      exact ih ((List.mem_cons.1 ha).resolve_left (Ne.symm heq)) hdead.2

namespace Places

/-- Where only one text can be read, the place after it is the first one. -/
theorem Reads.head?_eq {e : Places} {L : List Char → Prop} (h : e.Reads L) {c : Cursor}
    {w rest : List Char} (hc : c.rest = w ++ rest) (hw : L w)
    (hunique : ∀ w' rest', c.rest = w' ++ rest' → L w' → w' = w) :
    (e c).head? = some (c.reading w rest) := by
  have hmem := (h c _).2 ⟨w, rest, hc, hw, rfl⟩
  obtain ⟨c', hc'⟩ := Option.isSome_iff_exists.1 (List.isSome_head?.2 (List.ne_nil_of_mem hmem))
  obtain ⟨w', rest', hrest', hw', rfl⟩ := (h c c').1 (List.mem_of_head? hc')
  obtain rfl := hunique w' rest' hrest' hw'
  rw [hc', List.append_cancel_left (hc.symm.trans hrest')]

variable {test : Char → Bool}

/-- A character that passes the test is read. -/
theorem one_of_pass {c : Cursor} {x : Char} {rest : List Char} (hc : c.rest = x :: rest)
    (hx : test x = true) : one test c = [c.reading [x] rest] := by
  simp [one, Cursor.advance, hc, hx, Cursor.reading]

/-- Nothing is read where the next character fails the test. -/
theorem one_of_fail {c : Cursor} (hc : ∀ x, c.rest.head? = some x → test x = false) :
    one test c = [] := by
  unfold one Cursor.advance
  cases hrest : c.rest with
  | nil => rfl
  | cons x rest =>
    rw [hrest] at hc
    simp [hc x rfl]

/-- A fixed number of characters that pass the test. -/
theorem times_one {v rest : List Char} (hv : ∀ x ∈ v, test x = true) {c : Cursor}
    (hc : c.rest = v ++ rest) : times (one test) v.length c = [c.reading v rest] := by
  induction v generalizing c with
  | nil =>
    rw [List.nil_append] at hc
    rw [← hc, Cursor.reading_nil]
    rfl
  | cons x v ih =>
    rw [List.forall_mem_cons] at hv
    show (one test c).flatMap (times (one test) v.length) = _
    rw [one_of_pass hc hv.1, List.flatMap_singleton, ih hv.2 rfl, Cursor.reading_reading]
    rfl

/-- Rounds that read characters as long as they pass the test reach the end of the run first. -/
theorem head?_greedy_one {v rest : List Char} (hv : ∀ x ∈ v, test x = true)
    (hrest : ∀ x, rest.head? = some x → test x = false) {n : Nat} (hn : v.length ≤ n) {c : Cursor}
    (hc : c.rest = v ++ rest) : (greedy (one test) n c).head? = some (c.reading v rest) := by
  -- Each round reads a character of the run, and the round after the last one reads nothing.
  induction v generalizing n c with
  | nil =>
    rw [List.nil_append] at hc
    rw [← hc] at hrest
    rw [← hc, Cursor.reading_nil]
    cases n with
    | zero => rfl
    | succ n =>
      show (thenMore (one test) (greedy (one test) n) c ++ [c]).head? = _
      unfold thenMore
      rw [one_of_fail hrest]
      rfl
  | cons x v ih =>
    rw [List.forall_mem_cons] at hv
    rw [List.cons_append] at hc
    cases n with
    | zero => exact absurd hn (Nat.not_succ_le_zero _)
    | succ n =>
      have hnext := ih hv.2 (Nat.le_of_succ_le_succ hn) (c := c.reading [x] (v ++ rest)) rfl
      show (thenMore (one test) (greedy (one test) n) c ++ [c]).head? = _
      unfold thenMore
      rw [one_of_pass hc hv.1, List.flatMap_singleton,
        if_neg (c.pos_reading_ne (List.cons_ne_nil x []) _), List.head?_append, hnext,
        Option.some_or, Cursor.reading_reading]
      rfl

end Places

/-! ## Values in a row -/

namespace Places

/-- Nothing is reached from before such a character. -/
def DeadBefore (inner : Char → Prop) (e : Places) : Prop :=
  ∀ (c : Cursor) (x : Char), c.rest.head? = some x → inner x → e c = []

variable {inner : Char → Prop} {L : List Char → Prop} {d : Char} {e next : Places}

/-- A value ends before its delimiter where nothing goes on inside it. -/
theorem Reads.head?_value {front : List Char} (h : e.Reads fun w => ∃ u, L u ∧ w = front ++ u)
    (hL : ∀ u, L u → d ∉ u) (hnext : next.DeadBefore inner) {u rest : List Char} (hu : L u)
    (hinner : ∀ x ∈ u, inner x) (hrest : ∀ x, rest.head? = some x → x = d) {c : Cursor}
    (hc : c.rest = front ++ (u ++ rest)) :
    ((e c).flatMap next).head? = (next (c.reading (front ++ u) rest)).head? := by
  have hsplit : c.rest = front ++ u ++ rest := by rw [hc, List.append_assoc]
  refine head?_flatMap_of_dead ((h c _).2 ⟨_, rest, hsplit, ⟨u, hu, rfl⟩, rfl⟩) fun c' hc' hne => ?_
  obtain ⟨_, rest', hsplit', ⟨u', hu', rfl⟩, rfl⟩ := (h c c').1 hc'
  rw [hc, List.append_assoc] at hsplit'
  rcases List.append_eq_append_iff.1 (List.append_cancel_left hsplit') with
    ⟨m, rfl, rfl⟩ | ⟨m, rfl, rfl⟩
  · cases m with
    | nil => exact absurd (by rw [List.append_nil, List.nil_append]) hne
    | cons x m =>
      -- A longer value would have the delimiter in it.
      obtain rfl := hrest x rfl
      exact absurd (List.mem_append_right u List.mem_cons_self) (hL _ hu')
  · cases m with
    | nil => exact absurd (by rw [List.append_nil, List.nil_append]) hne
    | cons x m =>
      -- Behind a shorter value stands a character of this one.
      exact hnext _ x rfl (hinner x (List.mem_append_right u' List.mem_cons_self))

/-- Values with a delimiter before each start with it. -/
theorem eq_of_head?_delimited {us : List (List Char)} {x : Char}
    (h : (us.flatMap (d :: ·)).head? = some x) : x = d := by
  cases us with
  | nil => cases h
  | cons u us => exact (Option.some.inj h).symm

/-- There are no more values than characters in them and their delimiters. -/
theorem length_le_delimited (us : List (List Char)) :
    us.length ≤ (us.flatMap (d :: ·)).length := by
  induction us with
  | nil => exact Nat.zero_le _
  | cons u us ih =>
    rw [List.flatMap_cons, List.length_append, List.length_cons, List.length_cons]
    omega

/-- Where no delimiter follows, no round of a delimiter and a value can be made. -/
theorem Reads.greedy_eq (h : e.Reads fun w => ∃ u, L u ∧ w = [d] ++ u) (n : Nat) {c : Cursor}
    (hc : ∀ x, c.rest.head? = some x → x ≠ d) : Places.greedy e n c = [c] := by
  have hnone : e c = [] := by
    refine List.eq_nil_iff_forall_not_mem.2 fun c' hc' => ?_
    obtain ⟨_, rest, hsplit, ⟨u, -, rfl⟩, -⟩ := (h c c').1 hc'
    exact hc d (by rw [hsplit]; rfl) rfl
  cases n with
  | zero => rfl
  | succ n =>
    show Places.thenMore e (Places.greedy e n) c ++ [c] = [c]
    rw [Places.thenMore, hnone]
    rfl

/-- Nothing goes on inside a value with such rounds either. -/
theorem Reads.deadBefore_greedy (h : e.Reads fun w => ∃ u, L u ∧ w = [d] ++ u) (hd : ¬inner d)
    (hnext : next.DeadBefore inner) (n : Nat) :
    DeadBefore inner fun c => (Places.greedy e n c).flatMap next := by
  intro c x hx hinner
  have hother : ∀ y, c.rest.head? = some y → y ≠ d := by
    rintro y hy rfl
    exact hd (Option.some.inj (hx.symm.trans hy) ▸ hinner)
  show (Places.greedy e n c).flatMap next = []
  rw [h.greedy_eq n hother, List.flatMap_singleton, hnext c x hx hinner]

/-- Rounds that read a delimiter and a value reach the end of the last value first, where nothing
goes on inside a value. -/
theorem Reads.head?_greedy (h : e.Reads fun w => ∃ u, L u ∧ w = [d] ++ u)
    (hL : ∀ u, L u → d ∉ u) (hd : ¬inner d) (hnext : next.DeadBefore inner)
    {us : List (List Char)} (hus : ∀ u ∈ us, L u ∧ ∀ x ∈ u, inner x) {n : Nat}
    (hn : us.length ≤ n) {c c' : Cursor} (hc : c.rest = us.flatMap (d :: ·))
    (hc' : (next (c.reading (us.flatMap (d :: ·)) [])).head? = some c') :
    ((Places.greedy e n c).flatMap next).head? = some c' := by
  induction us generalizing n c with
  | nil =>
    have hnil : c.reading [] [] = c := by
      rw [List.flatMap_nil] at hc
      have := c.reading_nil
      rwa [hc] at this
    rw [h.greedy_eq n (by rw [hc]; exact nofun), List.flatMap_singleton]
    rwa [List.flatMap_nil, hnil] at hc'
  | cons u us ih =>
    rw [List.forall_mem_cons] at hus
    obtain ⟨n, rfl⟩ : ∃ k, n = k + 1 := Nat.exists_eq_add_one_of_ne_zero (by
      rintro rfl
      exact absurd hn (Nat.not_succ_le_zero _))
    rw [List.flatMap_cons] at hc hc'
    -- After one round the induction goes on from the end of the first value.
    let after : Places := fun m => (if m.pos = c.pos then [m] else Places.greedy e n m).flatMap next
    have hafter : after.DeadBefore inner := by
      intro m x hx hinner
      show (ite _ _ _ : List Cursor).flatMap next = []
      split
      · rw [List.flatMap_singleton, hnext m x hx hinner]
      · exact h.deadBefore_greedy hd hnext n m x hx hinner
    have hfirst := h.head?_value hL hafter hus.1.1 hus.1.2 (fun x => eq_of_head?_delimited) hc
    show ((Places.thenMore e (Places.greedy e n) c ++ [c]).flatMap next).head? = _
    rw [List.flatMap_append, List.head?_append, Places.thenMore, List.flatMap_assoc, hfirst]
    have hmoved : (c.reading ([d] ++ u) (us.flatMap (d :: ·))).pos ≠ c.pos :=
      c.pos_reading_ne (List.cons_ne_nil d u) _
    show ((ite _ _ _ : List Cursor).flatMap next).head?.or _ = _
    rw [if_neg hmoved, ih hus.2 (Nat.le_of_succ_le_succ hn) rfl, Option.some_or]
    rwa [Cursor.reading_reading]

end Places

/-- A greedy repetition of single characters reaches the end of the longest run first. -/
theorem head?_repeated_one {test : Char → Bool} {v rest : List Char}
    (hv : ∀ x ∈ v, test x = true) (hrest : ∀ x, rest.head? = some x → test x = false) {min : Nat}
    (hmin : min ≤ v.length) {c : Cursor} (hc : c.rest = v ++ rest) :
    (Places.repeated (Places.one test) min none .greedy c).head? = some (c.reading v rest) := by
  -- The fixed rounds read the first part of the run, and the greedy ones the rest of it.
  obtain ⟨u, w, rfl, rfl⟩ : ∃ u w, v = u ++ w ∧ min = u.length :=
    ⟨v.take min, v.drop min, (List.take_append_drop min v).symm,
      (List.length_take_of_le hmin).symm⟩
  rw [List.forall_mem_append] at hv
  rw [List.append_assoc] at hc
  have hrounds : w.length ≤ Matcher.roundsLeft u.length none (c.reading u (w ++ rest)) := by
    simp only [Matcher.roundsLeft, Cursor.reading_rest, List.length_append]
    omega
  show ((Places.times (Places.one test) u.length c).flatMap fun c' =>
    Places.greedy (Places.one test) (Matcher.roundsLeft u.length none c') c').head? = _
  rw [Places.times_one hv.1 hc, List.flatMap_singleton,
    Places.head?_greedy_one hv.2 hrest hrounds rfl, Cursor.reading_reading]

end SiteRouter.Regex
