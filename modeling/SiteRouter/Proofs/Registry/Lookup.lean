import SiteRouter.Registry

/-!
# The first route that fits

A registry looks a route up by its name, and a URL up by its path; both are searches for the first
route that fits, with its place in the table. `findPlace?` is that search over any list. What is
found in a list is found in any longer one (`findPlace?_append`), and it is found exactly where it
fits and nothing before it does (`findPlace?_eq_some`).
-/

namespace SiteRouter

/-- The first answer for a member of a list and its place. -/
def findPlace? {α β : Type} (f : α → Nat → Option β) (l : List α) : Option β :=
  l.zipIdx.findSome? fun (a, i) => f a i

variable {α β : Type} {f : α → Nat → Option β} {l : List α}

/-- An answer in the first part of a list is the answer in the whole list. -/
theorem findPlace?_append {b : β} (h : findPlace? f l = some b) (l' : List α) :
    findPlace? f (l ++ l') = some b := by
  unfold findPlace? at h ⊢
  rw [List.zipIdx_append, List.findSome?_append, h, Option.some_or]

/-- The answer is that of a member, and no member before it has one. -/
theorem findPlace?_eq_some {b : β} :
    findPlace? f l = some b ↔
      ∃ i a, l[i]? = some a ∧ f a i = some b ∧
        ∀ j < i, ∀ a', l[j]? = some a' → f a' j = none := by
  unfold findPlace?
  rw [List.findSome?_eq_some_iff]
  constructor
  · rintro ⟨before, ⟨a, i⟩, rest, hsplit, hb, hbefore⟩
    -- The place of a member of the numbered list is the number that it bears.
    have hplace : ∀ j : Nat, l.zipIdx[j]? = l[j]?.map fun a => (a, j) := by
      intro j
      rw [List.getElem?_zipIdx, Nat.zero_add]
    have hmember : l.zipIdx[before.length]? = some (a, i) := by
      rw [hsplit, List.getElem?_append_right (Nat.le_refl _), Nat.sub_self]
      rfl
    rw [hplace, Option.map_eq_some_iff] at hmember
    obtain ⟨a', ha, heq⟩ := hmember
    cases heq
    refine ⟨_, a, ha, hb, fun j hj a' ha' => ?_⟩
    have hmem : l.zipIdx[j]? = some (a', j) := by rw [hplace, ha']; rfl
    rw [hsplit, List.getElem?_append_left hj] at hmem
    exact hbefore _ (List.mem_of_getElem? hmem)
  · rintro ⟨i, a, ha, hb, hbefore⟩
    obtain ⟨hi, rfl⟩ := List.getElem?_eq_some_iff.1 ha
    refine ⟨(l.take i).zipIdx, (l[i], i), (l.drop (i + 1)).zipIdx (i + 1), ?_, hb, ?_⟩
    · have hlength : (l.take i).length = i := List.length_take_of_le (Nat.le_of_lt hi)
      have hsplit : l = l.take i ++ l[i] :: l.drop (i + 1) := by
        rw [List.getElem_cons_drop, List.take_append_drop]
      calc l.zipIdx = (l.take i ++ l[i] :: l.drop (i + 1)).zipIdx := congrArg List.zipIdx hsplit
        _ = _ := by rw [List.zipIdx_append, List.zipIdx_cons, hlength, Nat.zero_add]
    · rintro ⟨a', j⟩ hmem
      have ha' : (l.take i)[j]? = some a' := List.mem_zipIdx_iff_getElem?.1 hmem
      rw [List.getElem?_take] at ha'
      split at ha'
      · next hj => exact hbefore j hj a' ha'
      · cases ha'

/-- There is no answer where no member has one. -/
theorem findPlace?_eq_none :
    findPlace? f l = none ↔ ∀ i a, l[i]? = some a → f a i = none := by
  unfold findPlace?
  rw [List.findSome?_eq_none_iff]
  constructor
  · intro h i a ha
    exact h (a, i) (List.mem_zipIdx_iff_getElem?.2 ha)
  · rintro h ⟨a, i⟩ hmem
    exact h i a (List.mem_zipIdx_iff_getElem?.1 hmem)

/-- Looking a name up is searching for the first route that has it. -/
theorem Registry.named?_eq (g : Registry) (name : Value) :
    g.named? name = if name.truthy then
        findPlace? (fun r i => if r.name.same name then some ⟨i, r⟩ else none) g.routes
      else none := by
  have hfrom : ∀ i (routes : List Route), namedFrom name i routes =
      (routes.zipIdx i).findSome? fun (r, i) => if r.name.same name then some ⟨i, r⟩ else none := by
    intro i routes
    induction routes generalizing i with
    | nil => rfl
    | cons r routes ih =>
      rw [namedFrom, List.zipIdx_cons, List.findSome?_cons]
      dsimp only
      rw [ih]
      split
      · rfl
      · rfl
  rw [named?, hfrom]
  rfl

/-- A route that is found by a name is the one in its place, and has the name. -/
theorem Registry.of_named?_eq_some {g : Registry} {name : Value} {e : Entry}
    (h : g.named? name = some e) :
    name.truthy = true ∧ g.routes[e.index]? = some e.route ∧ e.route.name.same name = true := by
  rw [named?_eq] at h
  split at h
  · next htruthy =>
    obtain ⟨i, r, hr, hfits, -⟩ := findPlace?_eq_some.1 h
    split at hfits
    · next hname =>
      cases hfits
      exact ⟨htruthy, hr, hname⟩
    · cases hfits
  · cases h

/-- Answering a path is searching for the first route that matches it. -/
theorem Registry.firstHit_eq (path : String) (routes : List Route) :
    firstHit path 0 routes =
      findPlace? (fun r i => (r.match? path).map fun params => ⟨⟨i, r⟩, params⟩) routes := by
  have hfrom : ∀ i, firstHit path i routes = (routes.zipIdx i).findSome? fun (r, i) =>
      (r.match? path).map fun params => ⟨⟨i, r⟩, params⟩ := by
    intro i
    induction routes generalizing i with
    | nil => rfl
    | cons r routes ih =>
      rw [firstHit, List.zipIdx_cons, List.findSome?_cons]
      dsimp only
      rw [ih]
      cases r.match? path with
      | none => rfl
      | some params => rfl
  exact hfrom 0

end SiteRouter
