import Synergy.Http.HeaderFields

/-!
# `CHeaderMap` as the `std::map` it is

`CHTTPRequest::CHeaderMap` is a `std::map<CString, UInt32, CHTTPUtil::CaselessCmp>`, and
`readRequest` uses three of its operations: `find`, `count` (`find` is not `end()`) and
`insert`, the last only for a name that `find` did not find.  The model (`CHeaderMap.find`)
keeps the entries in the order they were inserted and looks a name up as the first entry
caselessly equal to it.  Here is the map as the library keeps it: its entries in key order,
as an in-order walk of the tree visits them (`StdHeaderMap`, the order carried as a field);
`find` as `lower_bound` followed by the equivalence test; `insert` at the key's place unless
an equivalent key is there.

* `found_dropWhile` — on entries in key order, `lower_bound` and the equivalence test find
  what the model's first-match lookup finds;
* `find_insert` — one `insert` keeps the map finding every name as the model does after the
  entry is appended;
* `find_ofList` — **PROVED**: after any sequence of insertions, the `std::map` finds every
  name, in any spelling, as `CHeaderMap.find` finds it in the list of the entries inserted,
  so the model's insertion order is never observed.  Since `readHeaderLine` appends an entry
  exactly when the lookup fails, which is when the code inserts one, the code's map is
  always `StdHeaderMap.ofList` of the model's `m_headerIndexByName`.
-/

namespace Synergy.Http

namespace CaselessCmp

theorem less_irrefl (a : List Char) : less a a = false :=
  Bool.eq_false_iff.mpr fun h => irrefl _ ((less_iff_lex a a).mp h)

theorem less_trans {a b c : List Char} (h₁ : less a b = true) (h₂ : less b c = true) :
    less a c = true :=
  (less_iff_lex a c).mpr (IsTrans.trans _ _ _ ((less_iff_lex a b).mp h₁) ((less_iff_lex b c).mp h₂))

theorem equal_eq_false_of_less {a b : List Char} (h : less a b = true) : equal a b = false := by
  simp [equal, h]

theorem equal_of_not_less {a b : List Char} (h₁ : less a b = false) (h₂ : less b a = false) :
    equal a b = true := by
  simp [equal, h₁, h₂]

/-- `less` sees its second string only up to caseless equality. -/
theorem less_congr_right {a b c : List Char} (h : equal a b = true) : less c a = less c b := by
  rw [Bool.eq_iff_iff, less_iff_lex, less_iff_lex, (equal_iff a b).mp h]

end CaselessCmp

open CaselessCmp

/-- A lookup in which no entry is caselessly equal to the name finds nothing. -/
theorem CHeaderMap.find_eq_none_of {m : CHeaderMap} {name : List Char}
    (h : ∀ e ∈ m, equal e.1 name = false) : m.find name = none := by
  simpa [CHeaderMap.find, List.find?_eq_none] using h

/-- An entry inserted between others that does not match the name changes no lookup. -/
theorem CHeaderMap.find_append_cons_of_equal_false (T D : CHeaderMap) {e : List Char × Nat}
    {name : List Char} (he : equal e.1 name = false) :
    CHeaderMap.find (T ++ e :: D) name = CHeaderMap.find (T ++ D) name := by
  simp [CHeaderMap.find, List.find?_append, List.find?_cons, he]

/-- Entries appended after a found one change nothing. -/
theorem CHeaderMap.find_append_of_find {m : CHeaderMap} {name : List Char} {i : Nat}
    (l : CHeaderMap) (h : m.find name = some i) : (m ++ l).find name = some i := by
  unfold CHeaderMap.find at h ⊢
  obtain ⟨e, he, rfl⟩ := Option.map_eq_some'.mp h
  simp [List.find?_append, he]

/-- After entries none of which match, the first entry that does is found. -/
theorem CHeaderMap.find_append_cons_of_equal (T D : CHeaderMap) {e : List Char × Nat}
    {name : List Char} (hT : ∀ t ∈ T, equal t.1 name = false) (he : equal e.1 name = true) :
    CHeaderMap.find (T ++ e :: D) name = some e.2 := by
  rw [CHeaderMap.find, List.find?_append, List.find?_eq_none.mpr (by simpa using hT)]
  simp [List.find?_cons, he]

/-- The entries of a `std::map<CString, UInt32, CaselessCmp>` in the order of an in-order
walk: strictly increasing under `CaselessCmp::less`, so no two keys are equivalent. -/
structure StdHeaderMap where
  entries : List (List Char × Nat)
  ordered : entries.Pairwise fun a b => less a.1 b.1 = true

namespace StdHeaderMap

/-- The empty map. -/
def empty : StdHeaderMap := ⟨[], List.Pairwise.nil⟩

/-- What `find` makes of the entries from `lower_bound` on: the first of them, when the key
is not less than its key, and `end()` otherwise. -/
def found (key : List Char) : List (List Char × Nat) → Option Nat
  | [] => none
  | e :: _ => if less key e.1 then none else some e.2

/-- `std::map::find`: `lower_bound`, the entries from the first whose key is not less than
`key`, then the equivalence test. -/
def find (m : StdHeaderMap) (key : List Char) : Option Nat :=
  found key (m.entries.dropWhile fun e => less e.1 key)

/-- An entry put at its key's place, with no equivalent key in the map, keeps the order. -/
theorem ordered_insertAt (m : StdHeaderMap) {key : List Char} (hnew : m.find key = none)
    (value : Nat) :
    (m.entries.takeWhile (fun e => less e.1 key) ++
      (key, value) :: m.entries.dropWhile fun e => less e.1 key).Pairwise
        fun a b => less a.1 b.1 = true := by
  have hbefore : ∀ x ∈ m.entries.takeWhile (fun e => less e.1 key), less x.1 key = true :=
    fun _ hx => (List.mem_takeWhile_imp hx :)
  have hD := m.ordered.sublist (List.dropWhile_suffix fun e : List Char × Nat => less e.1 key).sublist
  -- every entry from `lower_bound` on is above the key, or `find` would have found it
  have hafter : ∀ y ∈ m.entries.dropWhile (fun e => less e.1 key), less key y.1 = true := by
    have hfound : found key (m.entries.dropWhile fun e => less e.1 key) = none := hnew
    generalize m.entries.dropWhile (fun e => less e.1 key) = D at hfound hD ⊢
    cases D with
    | nil => simp
    | cons d D =>
      have hd : less key d.1 = true := by
        by_contra h
        simp [found, h] at hfound
      intro y hy
      rcases List.mem_cons.mp hy with rfl | hy
      · exact hd
      · exact less_trans hd (List.rel_of_pairwise_cons hD hy)
  refine List.pairwise_append.mpr
    ⟨m.ordered.sublist (List.takeWhile_prefix fun e : List Char × Nat => less e.1 key).sublist,
    List.pairwise_cons.mpr ⟨hafter, hD⟩, fun x hx y hy => ?_⟩
  rcases List.mem_cons.mp hy with rfl | hy
  · exact hbefore x hx
  · exact less_trans (hbefore x hx) (hafter y hy)

/-- `std::map::insert`: the entry at its key's place, unless an equivalent key is there, in
which case the map is left as it is. -/
def insert (m : StdHeaderMap) (key : List Char) (value : Nat) : StdHeaderMap :=
  if hnew : m.find key = none then
    ⟨m.entries.takeWhile (fun e => less e.1 key) ++
      (key, value) :: m.entries.dropWhile (fun e => less e.1 key), m.ordered_insertAt hnew value⟩
  else m

/-- The map after inserting entries one after the other into an empty one. -/
def ofList (entries : List (List Char × Nat)) : StdHeaderMap :=
  entries.foldl (fun m e => m.insert e.1 e.2) empty

/-- **`lower_bound` then the equivalence test is the first-match lookup** on entries in key
order: the entries below the key do not match it, and when the first one not below it is
above it, so are all after it. -/
theorem found_dropWhile {key : List Char} : ∀ {l : List (List Char × Nat)},
    l.Pairwise (fun a b => less a.1 b.1 = true) →
    found key (l.dropWhile fun e => less e.1 key) = CHeaderMap.find l key
  | [], _ => rfl
  | e :: l, hl => by
    rw [List.dropWhile_cons, CHeaderMap.find_cons]
    by_cases hbelow : less e.1 key = true
    · rw [if_pos hbelow, if_neg (by simp [equal_eq_false_of_less hbelow])]
      exact found_dropWhile hl.of_cons
    · rw [if_neg hbelow]
      by_cases habove : less key e.1 = true
      · -- the key is below every entry: nothing matches
        have hnone : ∀ x ∈ e :: l, equal x.1 key = false := fun x hx => by
          rw [equal_comm]
          rcases List.mem_cons.mp hx with rfl | hx
          · exact equal_eq_false_of_less habove
          · exact equal_eq_false_of_less (less_trans habove (List.rel_of_pairwise_cons hl hx))
        rw [found, if_pos habove, if_neg (by simp [hnone e (List.mem_cons_self e l)])]
        exact (CHeaderMap.find_eq_none_of fun x hx => hnone x (List.mem_cons_of_mem e hx)).symm
      · rw [found, if_neg habove, if_pos (equal_of_not_less (by simpa using hbelow)
          (by simpa using habove))]

theorem find_eq (m : StdHeaderMap) (key : List Char) : m.find key = CHeaderMap.find m.entries key :=
  found_dropWhile m.ordered

/-- **One insertion.**  A map that finds every name as the model finds it in `pre` finds,
after inserting an entry, every name as the model finds it in `pre` with the entry appended:
the entry for a name not there yet, the old entry otherwise. -/
theorem find_insert {m : StdHeaderMap} {pre : CHeaderMap}
    (h : ∀ name, m.find name = CHeaderMap.find pre name) (key : List Char) (value : Nat)
    (name : List Char) :
    (m.insert key value).find name = CHeaderMap.find (pre ++ [(key, value)]) name := by
  unfold insert
  split
  · next hnew =>
    rw [find_eq]
    dsimp only
    cases hkey : equal key name
    · -- another name: the entry does not match it
      rw [CHeaderMap.find_append_cons_of_equal_false _ _ hkey, List.takeWhile_append_dropWhile,
        ← find_eq, h, CHeaderMap.find_append_of_equal_false _ _ hkey]
    · -- the name inserted: no entry below the key matches it, and the model finds nothing
      -- before the appended entry
      have hpre : CHeaderMap.find pre name = none := by
        rw [← CHeaderMap.find_of_equal _ hkey, ← h, hnew]
      rw [CHeaderMap.find_append_new _ hpre hkey]
      refine CHeaderMap.find_append_cons_of_equal _ _ (fun t ht => ?_) hkey
      exact equal_eq_false_of_less
        (by rw [← less_congr_right hkey]; exact (List.mem_takeWhile_imp ht :))
  · next hold =>
    -- the key is there: so is every name equivalent to it, in the map and in the model
    rw [h]
    cases hkey : equal key name
    · rw [CHeaderMap.find_append_of_equal_false _ _ hkey]
    · obtain ⟨i, hi⟩ := Option.ne_none_iff_exists'.mp hold
      rw [h, CHeaderMap.find_of_equal _ hkey] at hi
      rw [hi, CHeaderMap.find_append_of_find _ hi]

/-- Insertions one after the other keep the map finding every name as the model finds it in
the entries inserted so far. -/
theorem find_foldl {m : StdHeaderMap} {pre : CHeaderMap}
    (h : ∀ name, m.find name = CHeaderMap.find pre name) (rest : List (List Char × Nat)) :
    ∀ name, (rest.foldl (fun m e => m.insert e.1 e.2) m).find name =
      CHeaderMap.find (pre ++ rest) name := by
  induction rest generalizing m pre with
  | nil => simpa using h
  | cons e rest ih =>
    rw [List.foldl_cons, show pre ++ e :: rest = (pre ++ [e]) ++ rest by simp]
    exact ih (find_insert h e.1 e.2)

/-- **The `std::map` refines the model.**  After inserting any entries one after the other,
the map finds every name, in any spelling, as the model's first-match lookup finds it in the
list of those entries. -/
theorem find_ofList (entries : List (List Char × Nat)) (name : List Char) :
    (ofList entries).find name = CHeaderMap.find entries name :=
  @find_foldl empty [] (fun _ => rfl) entries name

/-- The map keeps its entries in key order, not in the order they came. -/
example : (ofList [("b".toList, 0), ("A".toList, 1), ("a".toList, 2)]).entries =
    [("A".toList, 1), ("b".toList, 0)] := by decide

end StdHeaderMap

end Synergy.Http
