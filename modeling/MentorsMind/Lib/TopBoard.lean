import Mathlib

/-! A board with the largest of a family of counts, one of which grows by one at a time. -/
namespace TopBoard

variable {α : Type*} {k : ℕ} {count : α → ℕ} {board rest : List (α × ℕ)} {a : α} {last : α × ℕ}

/-- What a board of `k` places shows of the counts, in whatever order its entries stand. -/
structure Shows (k : ℕ) (count : α → ℕ) (board : List (α × ℕ)) : Prop where
  distinct : (board.map Prod.fst).Nodup
  eq_count : ∀ entry ∈ board, entry.2 = count entry.1
  length_le : board.length ≤ k
  covers : ∀ b, 0 < count b → b ∉ board.map Prod.fst →
    board.length = k ∧ ∀ entry ∈ board, count b ≤ entry.2

/-- The largest counts first. -/
def Sorted (board : List (α × ℕ)) : Prop := board.Pairwise fun x y => y.2 ≤ x.2

theorem shows_nil (hzero : ∀ b, count b = 0) : Shows k count [] where
  distinct := List.nodup_nil
  eq_count entry hentry := by cases hentry
  length_le := Nat.zero_le k
  covers b hb := absurd (hzero b) hb.ne'

theorem Shows.perm {board' : List (α × ℕ)} (h : Shows k count board) (hperm : board'.Perm board) :
    Shows k count board' := by
  have hnames : ∀ b, b ∈ board'.map Prod.fst ↔ b ∈ board.map Prod.fst :=
    fun b => (hperm.map Prod.fst).mem_iff
  constructor
  · exact (hperm.map Prod.fst).nodup_iff.mpr h.distinct
  · intro entry hentry
    exact h.eq_count entry (hperm.mem_iff.mp hentry)
  · rw [hperm.length_eq]
    exact h.length_le
  · intro b hb hout
    obtain ⟨hfull, hle⟩ := h.covers b hb (fun hin => hout ((hnames b).mpr hin))
    rw [hperm.length_eq]
    exact ⟨hfull, fun entry hentry => hle entry (hperm.mem_iff.mp hentry)⟩

/-- The last entry of a sorted board is its least. -/
theorem Sorted.last_le (h : Sorted (rest ++ [last])) :
    ∀ entry ∈ rest ++ [last], last.2 ≤ entry.2 := by
  intro entry hentry
  obtain hin | hlast := List.mem_append.mp hentry
  · exact (List.pairwise_append.mp h).2.2 entry hin last (List.mem_singleton_self last)
  · rw [List.mem_singleton.mp hlast]

/-- As long as there are no more than `k` names, all of them are on the board. -/
theorem Shows.complete (h : Shows k count board) (hfew : {b | 0 < count b}.encard ≤ k) :
    ∀ b, 0 < count b → b ∈ board.map Prod.fst := by
  classical
  intro b hb
  by_contra hout
  obtain ⟨hfull, hle⟩ := h.covers b hb hout
  have hnames : ∀ c ∈ b :: board.map Prod.fst, 0 < count c := by
    intro c hc
    obtain rfl | hin := List.mem_cons.mp hc
    · exact hb
    · obtain ⟨entry, hentry, rfl⟩ := List.mem_map.mp hin
      rw [← h.eq_count entry hentry]
      exact hb.trans_le (hle entry hentry)
  have hmany : ((b :: board.map Prod.fst).toFinset : Set α).encard = k + 1 := by
    rw [Set.encard_coe_eq_coe_finsetCard, List.toFinset_card_of_nodup
      (List.nodup_cons.mpr ⟨hout, h.distinct⟩), List.length_cons, List.length_map, hfull]
    rfl
  have hsub : ((b :: board.map Prod.fst).toFinset : Set α) ⊆ {c | 0 < count c} := by
    intro c hc
    exact hnames c (List.mem_toFinset.mp hc)
  have hlt := (hmany ▸ Set.encard_le_encard hsub).trans hfew
  exact absurd hlt (by norm_cast; omega)

section Raise

variable [DecidableEq α]

/-- One more for `a`. -/
def raise (count : α → ℕ) (a : α) : α → ℕ := Function.update count a (count a + 1)

theorem raise_self : raise count a a = count a + 1 := Function.update_self ..

theorem raise_of_ne {b : α} (h : b ≠ a) : raise count a b = count b := Function.update_of_ne h ..

theorem Shows.raise_eq (h : Shows k count board) (hout : a ∉ board.map Prod.fst) :
    ∀ entry ∈ board, entry.2 = raise count a entry.1 := by
  intro entry hentry
  have hne : entry.1 ≠ a := by
    rintro rfl
    exact hout (List.mem_map_of_mem hentry)
  rw [raise_of_ne hne]
  exact h.eq_count entry hentry

/-- A name on the board is counted where it stands. -/
theorem Shows.raise_listed (h : Shows k count board) (hin : a ∈ board.map Prod.fst) :
    Shows k (raise count a)
      (board.map fun entry => if entry.1 = a then (a, count a + 1) else entry) := by
  have hnames : (board.map fun entry => if entry.1 = a then (a, count a + 1) else entry).map
      Prod.fst = board.map Prod.fst := by
    rw [List.map_map]
    apply List.map_congr_left
    intro entry _
    dsimp only [Function.comp_apply]
    split_ifs with heq
    · exact heq.symm
    · rfl
  constructor
  · rw [hnames]
    exact h.distinct
  · intro entry hentry
    obtain ⟨old, hold, rfl⟩ := List.mem_map.mp hentry
    split_ifs with heq
    · exact raise_self.symm
    · rw [raise_of_ne heq]
      exact h.eq_count old hold
  · rw [List.length_map]
    exact h.length_le
  · intro b hb hout
    rw [hnames] at hout
    have hne : b ≠ a := by
      rintro rfl
      exact hout hin
    rw [raise_of_ne hne] at hb ⊢
    obtain ⟨hfull, hle⟩ := h.covers b hb hout
    refine ⟨by rw [List.length_map, hfull], ?_⟩
    intro entry hentry
    obtain ⟨old, hold, rfl⟩ := List.mem_map.mp hentry
    have hbefore := hle old hold
    split_ifs with heq
    · rw [h.eq_count old hold, heq] at hbefore
      exact hbefore.trans (Nat.le_succ _)
    · exact hbefore

/-- A newcomer takes a free place. -/
theorem Shows.raise_free (h : Shows k count board) (hout : a ∉ board.map Prod.fst)
    (hfree : board.length < k) : Shows k (raise count a) (board ++ [(a, count a + 1)]) := by
  constructor
  · rw [List.map_append]
    exact List.nodup_append_comm.mp (List.nodup_cons.mpr ⟨hout, h.distinct⟩)
  · intro entry hentry
    obtain hold | hnew := List.mem_append.mp hentry
    · exact h.raise_eq hout entry hold
    · rw [List.mem_singleton.mp hnew]
      exact raise_self.symm
  · rw [List.length_append, List.length_singleton]
    exact hfree
  · intro b hb hunlisted
    rw [List.map_append, List.mem_append, not_or] at hunlisted
    have hne : b ≠ a := by
      rintro rfl
      exact hunlisted.2 (List.mem_singleton_self b)
    rw [raise_of_ne hne] at hb
    obtain ⟨hfull, -⟩ := h.covers b hb hunlisted.1
    omega

/-- On a full board it takes the last place, if it beats it. -/
theorem Shows.raise_displacing (h : Shows k count (rest ++ [last]))
    (hsorted : Sorted (rest ++ [last]))
    (hout : a ∉ (rest ++ [last]).map Prod.fst) (hfull : (rest ++ [last]).length = k)
    (hbeats : last.2 < count a + 1) : Shows k (raise count a) (rest ++ [(a, count a + 1)]) := by
  have hleast := hsorted.last_le
  have hold : ∀ entry ∈ rest, entry ∈ rest ++ [last] :=
    fun entry hentry => List.mem_append.mpr (.inl hentry)
  have hrest : (rest.map Prod.fst).Nodup ∧ a ∉ rest.map Prod.fst := by
    have hnodup := h.distinct
    rw [List.map_append] at hnodup hout
    exact ⟨(List.nodup_append.mp hnodup).1, fun hin => hout (List.mem_append.mpr (.inl hin))⟩
  constructor
  · rw [List.map_append]
    exact List.nodup_append_comm.mp (List.nodup_cons.mpr ⟨hrest.2, hrest.1⟩)
  · intro entry hentry
    obtain hin | hnew := List.mem_append.mp hentry
    · exact h.raise_eq hout entry (hold entry hin)
    · rw [List.mem_singleton.mp hnew]
      exact raise_self.symm
  · rw [List.length_append, List.length_singleton] at hfull ⊢
    exact hfull.le
  · intro b hb hunlisted
    rw [List.map_append, List.mem_append, not_or] at hunlisted
    have hne : b ≠ a := by
      rintro rfl
      exact hunlisted.2 (List.mem_singleton_self b)
    rw [raise_of_ne hne] at hb ⊢
    -- whoever stands outside now has no more than the entry that left
    have hlast : count b ≤ last.2 := by
      by_cases hleft : b = last.1
      · rw [hleft, ← h.eq_count last (List.mem_append.mpr (.inr (List.mem_singleton_self last)))]
      · refine (h.covers b hb ?_).2 last (List.mem_append.mpr (.inr (List.mem_singleton_self last)))
        rw [List.map_append, List.mem_append, not_or]
        exact ⟨hunlisted.1, by simpa using hleft⟩
    refine ⟨by rw [List.length_append, List.length_singleton] at hfull ⊢; exact hfull, ?_⟩
    intro entry hentry
    obtain hin | hnew := List.mem_append.mp hentry
    · exact hlast.trans (hleast entry (hold entry hin))
    · rw [List.mem_singleton.mp hnew]
      exact hlast.trans hbeats.le

/-- And else it stays outside. -/
theorem Shows.raise_outside (h : Shows k count (rest ++ [last])) (hsorted : Sorted (rest ++ [last]))
    (hout : a ∉ (rest ++ [last]).map Prod.fst) (hfull : (rest ++ [last]).length = k)
    (hstays : count a + 1 ≤ last.2) : Shows k (raise count a) (rest ++ [last]) := by
  refine ⟨h.distinct, h.raise_eq hout, h.length_le, ?_⟩
  intro b hb hunlisted
  refine ⟨hfull, ?_⟩
  intro entry hentry
  by_cases heq : b = a
  · rw [heq, raise_self]
    exact hstays.trans (hsorted.last_le entry hentry)
  · rw [raise_of_ne heq] at hb ⊢
    exact (h.covers b hb hunlisted).2 entry hentry

end Raise

end TopBoard

/-! Picking the best entries of a list one after the other, where the first of equal entries is
taken and the others keep their order. -/
namespace BestFirst

variable {α β : Type*} [LinearOrder β] (score : α → β) (low : β)

/-- The position and score of the first best entry; `low` stands for none. -/
def scan (xs : List α) : ℕ × β :=
  xs.zipIdx.foldl
    (fun best entry => if best.2 < score entry.1 then (entry.2, score entry.1) else best) (0, low)

/-- What the scan finds in a list with entries. -/
structure Best (xs : List α) (found : ℕ × β) : Prop where
  taken : ∃ x, xs[found.1]? = some x ∧ score x = found.2
  best : ∀ (j : ℕ) y, xs[j]? = some y → score y ≤ found.2
  first : ∀ (j : ℕ) y, j < found.1 → xs[j]? = some y → score y < found.2

variable {score low}

theorem scan_concat (xs : List α) (x : α) : scan score low (xs ++ [x]) =
    if (scan score low xs).2 < score x then (xs.length, score x) else scan score low xs := by
  rw [scan, List.zipIdx_append, List.foldl_append, Nat.zero_add]
  rfl

theorem scan_best {xs : List α} (hne : xs ≠ []) (habove : ∀ x ∈ xs, low < score x) :
    Best score xs (scan score low xs) := by
  induction xs using List.reverseRecOn with
  | nil => exact absurd rfl hne
  | append_singleton xs x ih =>
    have hget : ∀ (j : ℕ) y, (xs ++ [x])[j]? = some y →
        xs[j]? = some y ∨ (j = xs.length ∧ y = x) := by
      intro j y hj
      rw [List.getElem?_append] at hj
      split_ifs at hj with hlt
      · exact .inl hj
      · right
        obtain ⟨hlast, hy⟩ := List.getElem?_eq_some_iff.mp hj
        simp only [List.length_singleton, Nat.lt_one_iff] at hlast
        simp only [hlast, List.getElem_cons_zero] at hy
        exact ⟨by omega, hy.symm⟩
    rw [scan_concat]
    rcases xs.eq_nil_or_concat with rfl | hsome
    · have hx : (scan score low ([] : List α)).2 < score x := habove x (by simp)
      rw [if_pos hx]
      refine ⟨⟨x, rfl, rfl⟩, ?_, ?_⟩
      · intro j y hj
        obtain hnone | ⟨-, rfl⟩ := hget j y hj
        · cases hnone
        · exact le_rfl
      · intro j y hlt
        exact absurd hlt (Nat.not_lt_zero j)
    · have hbefore := ih (by rintro rfl; simp at hsome)
        fun y hy => habove y (List.mem_append_left _ hy)
      split_ifs with hbetter
      · refine ⟨⟨x, by simp, rfl⟩, ?_, ?_⟩
        · intro j y hj
          obtain hold | ⟨-, rfl⟩ := hget j y hj
          · exact (hbefore.best j y hold).trans hbetter.le
          · exact le_rfl
        · intro j y hlt hj
          obtain hold | ⟨rfl, -⟩ := hget j y hj
          · exact (hbefore.best j y hold).trans_lt hbetter
          · exact absurd hlt (lt_irrefl _)
      · obtain ⟨z, hz, hscore⟩ := hbefore.taken
        have hin : (scan score low xs).1 < xs.length := (List.getElem?_eq_some_iff.mp hz).1
        refine ⟨⟨z, by rw [List.getElem?_append_left hin, hz], hscore⟩, ?_, ?_⟩
        · intro j y hj
          obtain hold | ⟨-, rfl⟩ := hget j y hj
          · exact hbefore.best j y hold
          · exact not_lt.mp hbetter
        · intro j y hlt hj
          rw [List.getElem?_append_left (hlt.trans hin)] at hj
          exact hbefore.first j y hlt hj

section Split

variable (score) (pos : α → ℕ)

/-- The order in which entries are picked. -/
def Ahead (a b : α) : Prop := score b < score a ∨ (score b = score a ∧ pos a < pos b)

instance : DecidableRel (Ahead score pos) := fun _ _ => inferInstanceAs (Decidable (_ ∨ _))

/-- Some entries were picked from the list, and the rest stands in order. -/
structure Split (xs picked rest : List α) : Prop where
  perm : (picked ++ rest).Perm xs
  sorted : rest.Pairwise fun a b => pos a < pos b
  ahead : ∀ p ∈ picked, ∀ r ∈ rest, Ahead score pos p r

variable {score pos} {xs picked rest : List α} {a b x : α}

theorem Ahead.irrefl (a : α) : ¬ Ahead score pos a a := by
  rintro (h | ⟨-, h⟩)
  · exact lt_irrefl _ h
  · exact lt_irrefl _ h

theorem Ahead.asymm (h : Ahead score pos a b) : ¬ Ahead score pos b a := by
  rintro (h' | ⟨heq, h'⟩)
  · rcases h with h | ⟨heq, -⟩
    · exact lt_asymm h h'
    · exact absurd heq h'.ne'
  · rcases h with h | ⟨-, h⟩
    · exact absurd heq h.ne'
    · exact lt_asymm h h'

theorem split_nil (hsorted : xs.Pairwise fun a b => pos a < pos b) :
    Split score pos xs [] xs where
  perm := List.Perm.refl xs
  sorted := hsorted
  ahead p hp := by cases hp

/-- One more entry is picked: the one that the scan finds. -/
theorem Split.pick (h : Split score pos xs picked rest) {found : ℕ × β}
    (hbest : Best score rest found) (hx : rest[found.1]? = some x) :
    Split score pos xs (picked ++ [x]) (rest.eraseIdx found.1) := by
  obtain ⟨hlt, hget⟩ := List.getElem?_eq_some_iff.mp hx
  have hscore : score x = found.2 := by
    obtain ⟨y, hy, hscore⟩ := hbest.taken
    rw [hx] at hy
    rw [Option.some.inj hy]
    exact hscore
  constructor
  · have hperm := List.getElem_cons_eraseIdx_perm hlt
    rw [hget] at hperm
    rw [List.append_assoc]
    exact (hperm.append_left picked).trans h.perm
  · exact h.sorted.sublist (List.eraseIdx_sublist rest found.1)
  · intro p hp r hr
    obtain ⟨j, hj, hrest⟩ := List.mem_eraseIdx_iff_getElem?.mp hr
    rcases List.mem_append.mp hp with hbefore | hlast
    · exact h.ahead p hbefore r (List.mem_of_getElem? hrest)
    · obtain rfl := List.mem_singleton.mp hlast
      rcases lt_or_gt_of_ne hj with hearlier | hlater
      · left
        rw [hscore]
        exact hbest.first j r hearlier hrest
      · rcases (hbest.best j r hrest).lt_or_eq with hless | hequal
        · left
          rw [hscore]
          exact hless
        · right
          obtain ⟨hjlt, hjget⟩ := List.getElem?_eq_some_iff.mp hrest
          have hpos := List.pairwise_iff_getElem.mp h.sorted found.1 j hlt hjlt hlater
          rw [hget, hjget] at hpos
          exact ⟨hequal.trans hscore.symm, hpos⟩

/-- An entry is picked if and only if fewer entries are ahead of it than are picked. -/
theorem Split.mem_picked_iff (h : Split score pos xs picked rest) (ha : a ∈ xs) :
    a ∈ picked ↔ (xs.countP fun b => decide (Ahead score pos b a)) < picked.length := by
  rw [← h.perm.countP_eq, List.countP_append]
  constructor
  · intro hin
    have hrest : (rest.countP fun b => decide (Ahead score pos b a)) = 0 := by
      rw [List.countP_eq_zero]
      intro r hr
      rw [decide_eq_true_eq]
      exact (h.ahead a hin r hr).asymm
    have hself : ¬ ∀ p ∈ picked, decide (Ahead score pos p a) = true := by
      intro hall
      exact Ahead.irrefl a (decide_eq_true_eq.mp (hall a hin))
    rw [hrest, Nat.add_zero]
    exact lt_of_le_of_ne List.countP_le_length fun heq => hself (List.countP_eq_length.mp heq)
  · intro hfew
    by_contra hout
    have hin : a ∈ rest := by
      have hmem := h.perm.mem_iff.mpr ha
      exact (List.mem_append.mp hmem).resolve_left hout
    have hall : (picked.countP fun b => decide (Ahead score pos b a)) = picked.length := by
      rw [List.countP_eq_length]
      intro p hp
      rw [decide_eq_true_eq]
      exact h.ahead p hp a hin
    omega

end Split

end BestFirst
