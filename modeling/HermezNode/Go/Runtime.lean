import Mathlib.Data.List.AList
import Mathlib.Data.List.Sort

/-!
# The Go runtime as the node uses it

The selector and the pool API lean on three pieces of the Go runtime whose behaviour the
language only partly fixes:

* maps (`GoMap`): a `range` loop visits the entries in an order the runtime chooses afresh
  every time, so every loop over a map takes a `RangeOrder`, an arbitrary permutation;
* `sort.Slice` (`SliceSort`): a sorted permutation, with equivalent elements in an order Go
  does not promise, so the model receives the sort together with those two promises only;
* `sort.SliceStable` (`sliceStable`): the stable sort, which is determined by its input order
  and is therefore a plain function (`List.mergeSort`).

The fold lemma `GoMap.lookup_foldl_update` describes, once for all the loops of the node that
build a map key by key, what the map holds at every key after the loop.
-/

namespace HermezNode

/-- A Go `map[K]V`: finitely many keys, each with one value. -/
abbrev GoMap (K V : Type) := AList (fun _ : K => V)

/-- The order in which `for k, v := range m` visits the entries of a map.  Go leaves it
unspecified, so the model receives it: any permutation of the entries. -/
structure RangeOrder (α : Type) where
  order : List α → List α
  perm : ∀ l, List.Perm (order l) l

/-- Visiting the entries as they are stored. -/
def RangeOrder.id (α : Type) : RangeOrder α := ⟨fun l => l, fun l => List.Perm.refl l⟩

/-- `less` is a strict weak order: asymmetric, with a transitive complement.  This is what
`sort.Slice` and `sort.SliceStable` ask of their comparison. -/
structure StrictWeakOrder {α : Type} (less : α → α → Bool) : Prop where
  asymm : ∀ a b, less a b = true → less b a = false
  negTrans : ∀ a b c, less a b = false → less b c = false → less a c = false

/-- A comparison of keys in a linear order is a strict weak order. -/
theorem StrictWeakOrder.of_key {α β : Type} [LinearOrder β] {less : α → α → Bool} (key : α → β)
    (h : ∀ a b, less a b = decide (key a < key b)) : StrictWeakOrder less where
  asymm a b hab := by
    simp only [h, decide_eq_true_eq, decide_eq_false_iff_not] at hab ⊢
    exact lt_asymm hab
  negTrans a b c hab hbc := by
    simp only [h, decide_eq_false_iff_not, not_lt] at hab hbc ⊢
    exact le_trans hbc hab

/-- `sort.Slice(x, less)`: a permutation of `x` in which no element is `less` than an earlier
one, when `less` is a strict weak order. -/
structure SliceSort (α : Type) where
  sort : (α → α → Bool) → List α → List α
  perm : ∀ less l, List.Perm (sort less l) l
  sorted : ∀ less l, StrictWeakOrder less → (sort less l).Pairwise (fun a b => less b a = false)

/-- `sort.SliceStable(x, less)`: elements that are not `less` than one another keep their
order. -/
def sliceStable {α : Type} (less : α → α → Bool) (l : List α) : List α :=
  l.mergeSort (fun a b => !less b a)

section Sorting

variable {α : Type} {less : α → α → Bool}

theorem sliceStable_perm (less : α → α → Bool) (l : List α) :
    List.Perm (sliceStable less l) l :=
  List.mergeSort_perm l _

theorem sliceStable_sorted (h : StrictWeakOrder less) (l : List α) :
    (sliceStable less l).Pairwise (fun a b => less b a = false) := by
  have hs : (l.mergeSort fun a b => !less b a).Pairwise (fun a b => !less b a) :=
    List.sorted_mergeSort (fun a b c hab hbc => by simpa using h.negTrans c b a (by simpa using hbc) (by simpa using hab))
    (fun a b => by
      cases hab : less b a
      · simp [hab]
      · simp [h.asymm b a hab])
    l
  exact hs.imp (by simp)

/-- The stable sort meets the promises of `sort.Slice`. -/
def SliceSort.stable (α : Type) : SliceSort α :=
  ⟨sliceStable, sliceStable_perm, fun _ l h => sliceStable_sorted h l⟩

end Sorting

section EarlyReturn

variable {α β : Type} {g : α → Option β}

/-- A step that may fail, followed by the rest: it succeeds when the step does and the rest
succeeds on the step's result. -/
theorem except_bind_eq_ok {ε : Type} {x : Except ε α} {f : α → Except ε β} {b : β} :
    x >>= f = .ok b ↔ ∃ a, x = .ok a ∧ f a = .ok b := by
  cases x <;> simp [bind, Except.bind]

/-- Go's `if cond { return err }` with more code after it: the code passes the check exactly when
the condition is false. -/
theorem ite_throw_eq_ok {ε : Type} {p : Prop} [Decidable p] {e : ε} {x : Except ε β} {b : β} :
    (if p then throw e else x) = .ok b ↔ ¬p ∧ x = .ok b := by
  split_ifs <;> simp_all [throw, throwThe, MonadExceptOf.throw]

theorem except_throw_bind {ε : Type} (e : ε) (f : α → Except ε β) :
    (throw e >>= f : Except ε β) = throw e :=
  rfl

/-- Wrapping an error (`fmt.Errorf`, `tracerr.Wrap`) does not change success. -/
theorem mapError_eq_ok {ε ε' : Type} {f : ε → ε'} {x : Except ε α} {a : α} :
    x.mapError f = .ok a ↔ x = .ok a := by
  cases x <;> simp [Except.mapError]

theorem mapM_cons_eq_some {a : α} {l : List α} {b : β} {r : List β} :
    (a :: l).mapM g = some (b :: r) ↔ g a = some b ∧ l.mapM g = some r := by
  rw [List.mapM_cons]
  simp only [bind, Option.bind_eq_some, pure, Option.some.injEq, List.cons.injEq]
  constructor
  · rintro ⟨c, hc, bs, hbs, rfl, rfl⟩; exact ⟨hc, hbs⟩
  · rintro ⟨hc, hbs⟩; exact ⟨b, hc, r, hbs, rfl, rfl⟩

/-- A loop over `l` whose body may `return` early (`none`), collecting what every iteration
produces: it runs to the end with `r` exactly when the iterations produce `r`. -/
theorem mapM_eq_some_iff {l : List α} {r : List β} :
    l.mapM g = some r ↔ l.map g = r.map some := by
  induction l generalizing r with
  | nil => rw [List.mapM_nil]; cases r <;> simp [pure]
  | cons a l ih =>
    cases r with
    | nil => rw [List.mapM_cons]; simp [bind, Option.bind_eq_some, pure]
    | cons b r => rw [mapM_cons_eq_some, ih, List.map_cons, List.map_cons, List.cons.injEq]

/-- The loop runs to the end when no iteration returns early. -/
theorem mapM_isSome {l : List α} (h : ∀ a ∈ l, (g a).isSome) : ∃ r, l.mapM g = some r := by
  induction l with
  | nil => exact ⟨[], rfl⟩
  | cons a l ih =>
    obtain ⟨b, hb⟩ := Option.isSome_iff_exists.1 (h a (List.mem_cons_self _ _))
    obtain ⟨r, hr⟩ := ih fun x hx => h x (List.mem_cons_of_mem _ hx)
    exact ⟨b :: r, by rw [List.mapM_cons, hb, hr]; rfl⟩

/-- A loop over `l` that returns the first error of its body: it runs to the end exactly when
the body succeeds on every element. -/
theorem forM_eq_ok {ε : Type} {f : α → Except ε Unit} {l : List α} :
    l.forM f = .ok () ↔ ∀ a ∈ l, f a = .ok () := by
  induction l with
  | nil => simp [pure, Except.pure]
  | cons a l ih =>
    rw [List.forM_cons', List.forall_mem_cons, ← ih]
    cases f a with
    | error e => simp [bind, Except.bind]
    | ok u => simp [bind, Except.bind]

end EarlyReturn

/-- A loop that appends each element either to the first slice or, transformed, to the
second. -/
theorem foldl_split {α β : Type} (keep : α → Bool) (g : α → β) (l : List α) (a : List α)
    (b : List β) :
    l.foldl (fun acc x => if keep x then (acc.1 ++ [x], acc.2) else (acc.1, acc.2 ++ [g x])) (a, b) =
      (a ++ l.filter keep, b ++ (l.filter fun x => !keep x).map g) := by
  induction l generalizing a b with
  | nil => simp
  | cons x l ih =>
    rw [List.foldl_cons]
    cases hk : keep x <;> simp [hk, ih]

namespace GoMap

variable {α K V : Type} [DecidableEq K]

/-- The body of a loop that, for the elements `x` with `p x`, sets `m[key x]` from its previous
value (`none` when the key is absent). -/
def update (p : α → Bool) (key : α → K) (upd : α → Option V → V) (m : GoMap K V) (x : α) :
    GoMap K V :=
  if p x then m.insert (key x) (upd x (m.lookup (key x))) else m

theorem lookup_update (p : α → Bool) (key : α → K) (upd : α → Option V → V) (m : GoMap K V)
    (x : α) (g : K) :
    (update p key upd m x).lookup g =
      if p x && key x = g then some (upd x (m.lookup g)) else m.lookup g := by
  unfold update
  by_cases hk : key x = g
  · subst hk; cases p x <;> simp
  · cases p x <;> simp [hk, AList.lookup_insert_ne (Ne.symm hk)]

/-- **What a map-building loop leaves at a key**: the updates of the elements with that key,
in order. -/
theorem lookup_foldl_update (p : α → Bool) (key : α → K) (upd : α → Option V → V)
    (xs : List α) (m : GoMap K V) (g : K) :
    (xs.foldl (update p key upd) m).lookup g =
      (xs.filter fun x => p x && key x = g).foldl (fun o x => some (upd x o)) (m.lookup g) := by
  induction xs generalizing m with
  | nil => rfl
  | cons x xs ih =>
    rw [List.foldl_cons, ih, lookup_update, List.filter_cons]
    split <;> simp_all

/-! ### Maps of slices

`m[k] = append(m[k], x)`, looped over a slice, groups the slice by key: each key holds its
elements in order (`lookup_foldl_appendAt`), and the values, read in any order, hold every
element once (`values_foldl_appendAt`). -/

/-- `m[key x] = append(m[key x], x)` for the elements with `p x`. -/
def appendAt (p : α → Bool) (key : α → K) : GoMap K (List α) → α → GoMap K (List α) :=
  update p key fun x o => o.getD [] ++ [x]

/-- The values of a map of slices, one after the other in the order they are stored. -/
def values (m : GoMap K (List α)) : List α := (m.entries.map Sigma.snd).flatten

theorem foldl_some_append (ys : List α) (o : Option (List α)) :
    ys.foldl (fun o x => some (o.getD [] ++ [x])) o =
      if ys.isEmpty then o else some (o.getD [] ++ ys) := by
  induction ys generalizing o with
  | nil => rfl
  | cons y ys ih => rw [List.foldl_cons, ih]; cases ys <;> simp

/-- **The slice at a key** holds the elements with that key, in order. -/
theorem lookup_foldl_appendAt (p : α → Bool) (key : α → K) (xs : List α) (g : K) :
    (xs.foldl (appendAt p key) ∅).lookup g =
      if (xs.filter fun x => p x && key x = g).isEmpty then none
      else some (xs.filter fun x => p x && key x = g) := by
  rw [appendAt, lookup_foldl_update, foldl_some_append, AList.lookup_empty]
  rfl

theorem values_appendAt (p : α → Bool) (key : α → K) (m : GoMap K (List α)) (x : α) :
    List.Perm (values (appendAt p key m x)) (values m ++ if p x then [x] else []) := by
  unfold appendAt update
  cases hp : p x
  · simp
  · simp only [if_true, values, AList.insert_entries, List.map_cons, List.flatten_cons]
    cases hl : m.lookup (key x) with
    | none =>
      rw [List.kerase_of_not_mem_keys (AList.lookup_eq_none.1 hl), Option.getD_none,
        List.nil_append]
      exact List.perm_append_comm
    | some l =>
      obtain ⟨b, l₁, l₂, -, he, hk⟩ := List.exists_of_kerase
        (AList.mem_keys.1 (AList.lookup_isSome.1 (by rw [hl]; rfl)))
      have hb : b = l := by
        have : m.lookup (key x) = some b := AList.mem_lookup_iff.2 (he ▸ by simp)
        rw [hl] at this
        exact (Option.some.inj this).symm
      subst hb
      rw [hk, he, Option.getD_some]
      simp only [List.map_append, List.map_cons, List.flatten_append, List.flatten_cons]
      classical
      rw [List.perm_iff_count]
      intro a
      simp only [List.count_append]
      omega

/-- **The values hold every element once.** -/
theorem values_foldl_appendAt (p : α → Bool) (key : α → K) (xs : List α) (m : GoMap K (List α)) :
    List.Perm (values (xs.foldl (appendAt p key) m)) (values m ++ xs.filter p) := by
  induction xs generalizing m with
  | nil => simp
  | cons x xs ih =>
    rw [List.foldl_cons, List.filter_cons]
    refine (ih _).trans ?_
    refine ((values_appendAt p key m x).append_right _).trans ?_
    cases p x <;> simp

/-- A loop over distinct keys that sets each one from its current value (read with Go's
default `d`): the keys visited hold their new value, the others are untouched. -/
theorem lookup_foldl_insert {V : Type} (f : K → V → V) (d : V) (ks : List K) (hks : ks.Nodup)
    (m : GoMap K V) (k : K) :
    (ks.foldl (fun m g => m.insert g (f g ((m.lookup g).getD d))) m).lookup k =
      if k ∈ ks then some (f k ((m.lookup k).getD d)) else m.lookup k := by
  induction ks generalizing m with
  | nil => simp
  | cons g ks ih =>
    rw [List.foldl_cons, ih (List.nodup_cons.1 hks).2]
    by_cases hk : k = g
    · subst hk
      simp [(List.nodup_cons.1 hks).1]
    · simp [hk, AList.lookup_insert_ne hk]

/-- Concatenating, over entries with distinct keys, the values of the entries at key `g` gives
the value at `g`. -/
theorem flatten_map_ite_key {β : Type} (l : List ((_ : K) × List β)) (hl : l.NodupKeys) (g : K) :
    (l.map fun e => if e.1 = g then e.2 else []).flatten = (l.dlookup g).getD [] := by
  induction l with
  | nil => rfl
  | cons e l ih =>
    obtain ⟨hk, hl'⟩ := List.nodupKeys_cons.1 hl
    rw [List.map_cons, List.flatten_cons, ih hl']
    by_cases h : e.1 = g
    · obtain ⟨h', v⟩ := e
      subst h
      rw [if_pos rfl, List.dlookup_cons_eq, List.dlookup_eq_none.2 hk]
      simp
    · rw [if_neg h, List.dlookup_cons_ne _ _ (Ne.symm h), List.nil_append]

end GoMap

end HermezNode
