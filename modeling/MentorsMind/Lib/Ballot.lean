import MentorsMind.Lib.Machine

/-! Counters that are kept beside flags, and ballots that are kept so: a counter, and one flag
for each voter. The history of a ballot tells who voted since it was opened last; a counter that
is raised whenever a flag is set counts exactly these. -/

/-- The counter is the number of flags that are set. -/
def CountsFlags {α : Type*} (n : ℕ) (flag : α → Bool) : Prop := {a | flag a = true}.encard = n

namespace CountsFlags

variable {α : Type*} {n m : ℕ} {flag : α → Bool} {a : α}

theorem empty (h : ∀ a, flag a = false) : CountsFlags 0 flag := by
  simp [CountsFlags, h]

theorem unique (hn : CountsFlags n flag) (hm : CountsFlags m flag) : n = m := by
  have heq : (n : ℕ∞) = m := hn.symm.trans hm
  exact_mod_cast heq

theorem pos (h : CountsFlags n flag) (ha : flag a = true) : 1 ≤ n := by
  have hne : {b | flag b = true}.encard ≠ 0 := Set.encard_ne_zero.mpr ⟨a, ha⟩
  rw [h] at hne
  exact Nat.one_le_iff_ne_zero.mpr (by exact_mod_cast hne)

variable [DecidableEq α]

/-- A flag that is written as it was. -/
theorem keep {b : Bool} (h : CountsFlags n flag) (ha : flag a = b) :
    CountsFlags n (Function.update flag a b) := by
  rwa [← ha, Function.update_eq_self]

theorem set (h : CountsFlags n flag) (ha : flag a = false) :
    CountsFlags (n + 1) (Function.update flag a true) := by
  have hinsert : {b | Function.update flag a true b = true} = insert a {b | flag b = true} := by
    ext b
    by_cases hb : b = a
    · simp [hb]
    · simp [hb]
  unfold CountsFlags at h ⊢
  rw [hinsert, Set.encard_insert_of_notMem (by simp [ha]), h]
  rfl

theorem clear (h : CountsFlags n flag) (ha : flag a = true) :
    CountsFlags (n - 1) (Function.update flag a false) := by
  have herase : {b | Function.update flag a false b = true} = {b | flag b = true} \ {a} := by
    ext b
    by_cases hb : b = a
    · simp [hb]
    · simp [hb]
  have hmem : a ∈ {b | flag b = true} := ha
  unfold CountsFlags at h ⊢
  rw [herase, Set.encard_sdiff_singleton_of_mem hmem, h]
  rfl

end CountsFlags

/-- What happens to a ballot: it is called without a vote, or somebody opens it, which is the first
vote, or casts another. -/
inductive BallotEvent (α : Type*) where
  | called
  | opened (voter : α)
  | cast (voter : α)
  deriving DecidableEq

def BallotEvent.voter {α : Type*} : BallotEvent α → Option α
  | .called => none
  | .opened voter => some voter
  | .cast voter => some voter

namespace Ballot

section Departures

variable {α : Type*} {voters electorate departed : Set α}

/-- Voters who stay in the electorate until they depart from it are those still in it and those
who departed. -/
theorem encard_inter_add_encard_inter (hfollowed : ∀ a ∈ voters, a ∈ electorate ∨ a ∈ departed)
    (hdisjoint : Disjoint electorate departed) :
    (voters ∩ electorate).encard + (voters ∩ departed).encard = voters.encard := by
  rw [← Set.encard_union_eq (hdisjoint.mono Set.inter_subset_right Set.inter_subset_right),
    ← Set.inter_union_distrib_left]
  congr 1
  exact Set.inter_eq_left.mpr hfollowed

/-- Enough voters are still in the electorate exactly if the votes beyond what is needed make up
for those who departed. -/
theorem le_encard_inter_iff {needed n : ℕ} (hcount : voters.encard = n)
    (hfollowed : ∀ a ∈ voters, a ∈ electorate ∨ a ∈ departed)
    (hdisjoint : Disjoint electorate departed) :
    (needed : ℕ∞) ≤ (voters ∩ electorate).encard ↔
      needed + (voters ∩ departed).encard ≤ (n : ℕ∞) := by
  have hfinite : (voters ∩ departed).encard ≠ ⊤ := by
    apply ne_top_of_le_ne_top _ (Set.encard_le_encard Set.inter_subset_left)
    rw [hcount]
    exact ENat.natCast_ne_top n
  rw [← hcount, ← encard_inter_add_encard_inter hfollowed hdisjoint]
  exact (ENat.add_le_add_iff_right hfinite).symm

end Departures

variable {α : Type*} [DecidableEq α]

def vote (voters : Finset α) : BallotEvent α → Finset α
  | .called => ∅
  | .opened voter => {voter}
  | .cast voter => insert voter voters

/-- Who has voted since the ballot was opened last. -/
def voters (events : List (BallotEvent α)) : Finset α := events.foldl vote ∅

@[simp] theorem voters_nil : voters ([] : List (BallotEvent α)) = ∅ := rfl

@[simp] theorem voters_snoc (events : List (BallotEvent α)) (event : BallotEvent α) :
    voters (events ++ [event]) = vote (voters events) event := by
  simp [voters, List.foldl_append]

theorem mem_voters_append {events : List (BallotEvent α)} {event : Option (BallotEvent α)} {a : α}
    (h : a ∈ voters (events ++ event.toList)) :
    (∃ now, event = some now ∧ now.voter = some a) ∨ a ∈ voters events := by
  cases event with
  | none => exact .inr (by simpa using h)
  | some now =>
    rw [Option.toList_some, voters_snoc] at h
    cases now with
    | called => simp [vote] at h
    | opened voter =>
      obtain rfl : a = voter := by simpa [vote] using h
      exact .inl ⟨_, rfl, rfl⟩
    | cast voter =>
      rcases Finset.mem_insert.mp h with rfl | hbefore
      · exact .inl ⟨_, rfl, rfl⟩
      · exact .inr hbefore

/-- The counter, while there is one, counts the voters, and their flags are set. -/
structure Tallied (events : List (BallotEvent α)) (count : Option ℕ) (flag : α → Bool) :
    Prop where
  counted : ∀ n, count = some n → (voters events).card = n
  flagged : ∀ a ∈ voters events, flag a = true

theorem Tallied.nil {flag : α → Bool} : Tallied ([] : List (BallotEvent α)) none flag where
  counted n hn := by simp at hn
  flagged a ha := by simp at ha

/-- A ballot may be called anew over flags that an older one left behind. -/
theorem Tallied.called (events : List (BallotEvent α)) (flag : α → Bool) :
    Tallied (events ++ [.called]) (some 0) flag where
  counted n hn := by
    rw [voters_snoc]
    simpa [vote] using hn
  flagged a ha := by
    rw [voters_snoc] at ha
    simp [vote] at ha

theorem Tallied.opened (events : List (BallotEvent α)) (flag : α → Bool) (a : α) :
    Tallied (events ++ [.opened a]) (some 1) (Function.update flag a true) where
  counted n hn := by
    rw [voters_snoc]
    simpa [vote] using hn
  flagged b hb := by
    rw [voters_snoc] at hb
    obtain rfl : b = a := by simpa [vote] using hb
    exact Function.update_self ..

/-- Whoever's flag is not set has not voted, so that the vote counts. -/
theorem Tallied.cast {events : List (BallotEvent α)} {n : ℕ} {flag : α → Bool} {a : α}
    (h : Tallied events (some n) flag) (hfirst : flag a = false) :
    Tallied (events ++ [.cast a]) (some (n + 1)) (Function.update flag a true) where
  counted m hm := by
    have hnew : a ∉ voters events := by
      intro ha
      rw [h.flagged a ha] at hfirst
      cases hfirst
    rw [voters_snoc]
    show (insert a (voters events)).card = m
    rw [Finset.card_insert_of_notMem hnew, h.counted n rfl]
    exact Option.some.inj hm
  flagged b hb := by
    rw [voters_snoc] at hb
    rcases Finset.mem_insert.mp hb with rfl | hb
    · exact Function.update_self ..
    · by_cases hba : b = a
      · rw [hba]
        exact Function.update_self ..
      · rw [Function.update_of_ne hba]
        exact h.flagged b hb

section Tables

variable {ι : Type*} [DecidableEq ι] {count count' : ι → Option ℕ} {flag flag' : ι → α → Bool}
  {event : ι → Option (BallotEvent α)} {history : ι → List (BallotEvent α)}

/-- What a step does to a table of ballots, with the event that each ballot records of it. -/
inductive Change (count count' : ι → Option ℕ) (flag flag' : ι → α → Bool)
    (event : ι → Option (BallotEvent α)) : Prop
  | called (i : ι) (event_eq : ∀ j, event j = if i = j then some .called else none)
      (count_eq : count' = Function.update count i (some 0)) (flag_eq : flag' = flag)
  | opened (i : ι) (a : α) (event_eq : ∀ j, event j = if i = j then some (.opened a) else none)
      (count_eq : count' = Function.update count i (some 1))
      (flag_eq : flag' = Function.update flag i (Function.update (flag i) a true))
  | cast (i : ι) (a : α) (n : ℕ) (found : count i = some n) (first : flag i a = false)
      (event_eq : ∀ j, event j = if i = j then some (.cast a) else none)
      (count_eq : count' = Function.update count i (some (n + 1)))
      (flag_eq : flag' = Function.update flag i (Function.update (flag i) a true))
  | same (event_eq : ∀ j, event j = none) (count_eq : count' = count) (flag_eq : flag' = flag)

theorem Change.tallied (h : Change count count' flag flag' event)
    (hs : ∀ i, Tallied (history i) (count i) (flag i)) (i : ι) :
    Tallied (history i ++ (event i).toList) (count' i) (flag' i) := by
  cases h with
  | called k event_eq count_eq flag_eq =>
    rw [event_eq, count_eq, flag_eq]
    by_cases hik : i = k
    · subst hik
      rw [if_pos rfl, Function.update_self]
      exact Tallied.called ..
    · rw [if_neg (Ne.symm hik), Function.update_of_ne hik, Option.toList_none, List.append_nil]
      exact hs i
  | opened k a event_eq count_eq flag_eq =>
    rw [event_eq, count_eq, flag_eq]
    by_cases hik : i = k
    · subst hik
      rw [if_pos rfl, Function.update_self, Function.update_self]
      exact Tallied.opened ..
    · rw [if_neg (Ne.symm hik), Function.update_of_ne hik, Function.update_of_ne hik,
        Option.toList_none, List.append_nil]
      exact hs i
  | cast k a n found first event_eq count_eq flag_eq =>
    rw [event_eq, count_eq, flag_eq]
    by_cases hik : i = k
    · subst hik
      rw [if_pos rfl, Function.update_self, Function.update_self]
      have hi := hs i
      rw [found] at hi
      exact hi.cast first
    · rw [if_neg (Ne.symm hik), Function.update_of_ne hik, Function.update_of_ne hik,
        Option.toList_none, List.append_nil]
      exact hs i
  | same event_eq count_eq flag_eq =>
    rw [event_eq, count_eq, flag_eq, Option.toList_none, List.append_nil]
    exact hs i

end Tables

section Runs

variable {σ β ε : Type*} {M : Machine σ β ε} {ι : Type*} [DecidableEq ι] {s : σ}
  {event : ι → σ → β → Option (BallotEvent α)} {count : σ → ι → Option ℕ}
  {flag : σ → ι → α → Bool}

/-- A machine whose steps change a table of ballots keeps it in agreement with the events of its
run. -/
theorem run_tallied (h0 : ∀ i, count s i = none)
    (hstep : ∀ a s t, M.exec a s = .ok t →
      Change (count s) (count t) (flag s) (flag t) fun i => event i s a) (as : List β) (i : ι) :
    Tallied (M.collect (fun s a _ => event i s a) s as) (count (M.run s as) i)
      (flag (M.run s as) i) := by
  induction as using List.reverseRecOn generalizing i with
  | nil =>
    rw [Machine.run_nil, h0 i]
    exact Tallied.nil
  | append_singleton as a ih =>
    rw [Machine.run_snoc]
    obtain ⟨t, hx, ht⟩ | ⟨e, hx, ht⟩ := Machine.apply_cases M (M.run s as) a
    · rw [ht, Machine.collect_snoc_ok hx]
      exact (hstep a _ t hx).tallied ih i
    · rw [ht, Machine.collect_snoc_error hx]
      exact ih i

end Runs

end Ballot
