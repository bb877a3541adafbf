import Mathlib

/-! A limiter that keeps the times of the events that still count and admits another one
while there are fewer than a limit. It forgets what is too old, and still no interval of the
given width holds more events than the limit, wherever it starts. -/
namespace SlidingWindow

/-- The events that count at time `now`: those of the last `width` seconds. -/
def recent (width now : ℕ) (times : List ℕ) : List ℕ := times.filter fun t => now - width ≤ t

/-- The events in the closed interval of length `width` from `start` on. -/
def within (width start : ℕ) (times : List ℕ) : List ℕ :=
  times.filter fun t => start ≤ t ∧ t ≤ start + width

variable {width limit now : ℕ} {kept events : List ℕ}

theorem recent_append (xs ys : List ℕ) :
    recent width now (xs ++ ys) = recent width now xs ++ recent width now ys := by
  simp [recent]

/-- What is too old now is too old later. -/
theorem recent_recent {later : ℕ} (hle : now ≤ later) (times : List ℕ) :
    recent width later (recent width now times) = recent width later times := by
  unfold recent
  rw [List.filter_filter]
  apply List.filter_congr
  intro t _
  rw [Bool.eq_iff_iff, Bool.and_eq_true, decide_eq_true_eq, decide_eq_true_eq]
  omega

/-- The kept times stand for all events as far as later calls can count them. -/
def Keeps (width : ℕ) (kept events : List ℕ) : Prop :=
  ∀ now, (∀ t ∈ events, t ≤ now) → recent width now kept = recent width now events

theorem keeps_nil : Keeps width [] [] := fun _ _ => rfl

/-- What is forgotten when an event is recorded will not count any more. -/
theorem Keeps.record (h : Keeps width kept events) :
    Keeps width (recent width now kept ++ [now]) (events ++ [now]) := by
  intro later hafter
  have hle : now ≤ later := hafter now (by simp)
  have hbefore : ∀ t ∈ events, t ≤ later := fun t ht => hafter t (by simp [ht])
  rw [recent_append, recent_append, recent_recent hle, h later hbefore]

/-- The kept times stand for all events as far as later calls can count them, and no
interval holds too many. -/
structure Limits (width limit : ℕ) (kept events : List ℕ) : Prop where
  recent_eq : ∀ now, (∀ t ∈ events, t ≤ now) → recent width now kept = recent width now events
  within_le : ∀ start, (within width start events).length ≤ limit

theorem limits_nil : Limits width limit [] [] :=
  ⟨fun _ _ => rfl, fun _ => Nat.zero_le limit⟩

/-- An interval that reaches the present holds nothing but recent events. -/
theorem within_length_le {start : ℕ} (hend : now ≤ start + width)
    (events : List ℕ) : (within width start events).length ≤ (recent width now events).length := by
  apply List.Sublist.length_le
  apply List.monotone_filter_right
  intro t ht
  rw [decide_eq_true_eq] at ht ⊢
  omega

/-- Admitting one more event while there is room. -/
theorem Limits.record (h : Limits width limit kept events) (hlater : ∀ t ∈ events, t ≤ now)
    (hroom : (recent width now kept).length < limit) :
    Limits width limit (recent width now kept ++ [now]) (events ++ [now]) := by
  refine ⟨Keeps.record h.recent_eq, fun start => ?_⟩
  · unfold within
    rw [List.filter_append, List.length_append]
    have hold := h.within_le start
    unfold within at hold
    by_cases hinside : start ≤ now ∧ now ≤ start + width
    · have hfew := within_length_le hinside.2 events
      unfold within at hfew
      rw [← h.recent_eq now hlater] at hfew
      have hone : ([now].filter fun t => start ≤ t ∧ t ≤ start + width).length ≤ 1 :=
        List.length_filter_le _ _
      omega
    · have hnone : ([now].filter fun t => start ≤ t ∧ t ≤ start + width) = [] := by
        simp [hinside]
      rw [hnone]
      simpa using hold

end SlidingWindow

/-! A limiter of timed amounts that keeps the entries of a long window and admits another one as
long as the recent amounts leave room for it. It forgets what is too old, and still the amounts in
no interval of the window's width exceed the limit, wherever it starts. -/
namespace RollingSum

variable {ε : Type*} (time : ε → ℕ) (amount : ε → ℤ)

/-- The entries that count at time `now`: those of the last `width` seconds. -/
def recent (width now : ℕ) (xs : List ε) : List ε := xs.filter fun x => now - width ≤ time x

/-- The entries in the closed interval of length `width` from `start` on. -/
def within (width start : ℕ) (xs : List ε) : List ε :=
  xs.filter fun x => start ≤ time x ∧ time x ≤ start + width

def total (xs : List ε) : ℤ := (xs.map amount).sum

/-- The kept entries stand for all of them as far as later calls can count them. -/
def Keeps (width : ℕ) (kept entries : List ε) : Prop :=
  ∀ now, (∀ x ∈ entries, time x ≤ now) → recent time width now kept = recent time width now entries

variable {time amount} {width now start : ℕ} {xs kept entries : List ε} {x : ε}

theorem recent_append (xs ys : List ε) :
    recent time width now (xs ++ ys) = recent time width now xs ++ recent time width now ys := by
  simp [recent]

/-- What a wider window has forgotten by now does not count later. -/
theorem recent_recent {wider later : ℕ} (hwidth : width ≤ wider) (hle : now ≤ later) (xs : List ε) :
    recent time width later (recent time wider now xs) = recent time width later xs := by
  unfold recent
  rw [List.filter_filter]
  apply List.filter_congr
  intro x _
  rw [Bool.eq_iff_iff, Bool.and_eq_true, decide_eq_true_eq, decide_eq_true_eq]
  omega

theorem keeps_nil : Keeps time width ([] : List ε) [] := fun _ _ => rfl

theorem Keeps.narrow {wider : ℕ} (h : Keeps time wider kept entries) (hwidth : width ≤ wider) :
    Keeps time width kept entries := by
  intro now hafter
  rw [← recent_recent hwidth (le_refl now) kept, h now hafter, recent_recent hwidth (le_refl now)]

/-- What is forgotten when an entry is recorded will not count any more. -/
theorem Keeps.record (h : Keeps time width kept entries) :
    Keeps time width (recent time width (time x) kept ++ [x]) (entries ++ [x]) := by
  intro later hafter
  have hle : time x ≤ later := hafter x (by simp)
  have hbefore : ∀ y ∈ entries, time y ≤ later := fun y hy => hafter y (by simp [hy])
  rw [recent_append, recent_append, recent_recent le_rfl hle, h later hbefore]

theorem total_append (xs ys : List ε) : total amount (xs ++ ys) = total amount xs + total amount ys := by
  simp [total]

/-- An interval that reaches the present holds nothing but recent amounts. -/
theorem total_within_le (hnonneg : ∀ x ∈ xs, 0 ≤ amount x) (hend : now ≤ start + width) :
    total amount (within time width start xs) ≤ total amount (recent time width now xs) := by
  have hsub : (within time width start xs).Sublist (recent time width now xs) := by
    apply List.monotone_filter_right
    intro x hx
    rw [decide_eq_true_eq] at hx ⊢
    omega
  refine (hsub.map amount).sum_le_sum ?_
  intro n hn
  obtain ⟨x, hx, rfl⟩ := List.mem_map.mp hn
  exact hnonneg x (List.mem_of_mem_filter hx)

/-- No interval of the width holds more than the limit. -/
def Bounded (time : ε → ℕ) (amount : ε → ℤ) (width : ℕ) (limit : ℤ) (xs : List ε) : Prop :=
  ∀ start, total amount (within time width start xs) ≤ limit

theorem bounded_nil {limit : ℤ} (h : 0 ≤ limit) :
    Bounded time amount width limit ([] : List ε) := fun _ => h

/-- An entry that leaves the recent amounts within the limit leaves every interval within it. -/
theorem Bounded.record {limit : ℤ} (h : Bounded time amount width limit entries)
    (hnonneg : ∀ y ∈ entries, 0 ≤ amount y)
    (hroom : total amount (recent time width (time x) entries) + amount x ≤ limit) :
    Bounded time amount width limit (entries ++ [x]) := by
  intro start
  have hsplit : within time width start (entries ++ [x]) =
      within time width start entries ++ within time width start [x] := by simp [within]
  rw [hsplit, total_append]
  by_cases hinside : start ≤ time x ∧ time x ≤ start + width
  · have hrecent : total amount (within time width start entries) ≤
        total amount (recent time width (time x) entries) := total_within_le hnonneg hinside.2
    have hone : within time width start [x] = [x] := by simp [within, hinside]
    have hamount : total amount [x] = amount x := by simp [total]
    rw [hone, hamount]
    omega
  · have hnone : within time width start [x] = [] := by simp [within, hinside]
    have hzero : total amount ([] : List ε) = 0 := rfl
    rw [hnone, hzero, add_zero]
    exact h start

end RollingSum

/-! A limiter that counts spending in fixed windows, against what was spent in the last
`width` seconds. The two agree as long as every window opens after `width` quiet seconds. -/
namespace RateWindow

structure Spending where
  time : ℕ
  amount : ℤ
  deriving DecidableEq

/-- What was spent in the `width` seconds up to `now`. -/
def spent (width : ℕ) (spendings : List Spending) (now : ℕ) : ℤ :=
  ((spendings.filter fun x => now < x.time + width).map Spending.amount).sum

/-- A window that opened at `start`, and what was counted in it. -/
structure Window where
  start : ℕ
  used : ℤ

namespace Window

/-- A window that is over is replaced by one that starts now. -/
def charge (width : ℕ) (w : Window) (now : ℕ) (amount : ℤ) : Window :=
  if width ≤ now - w.start then ⟨now, amount⟩ else ⟨w.start, w.used + amount⟩

/-- What a limiter that may not have opened a window yet has counted. -/
def usedIn : Option Window → ℤ
  | some w => w.used
  | none => 0

end Window

variable {width now : ℕ} {amount : ℤ} {spendings : List Spending} {w : Option Window}

theorem spent_append (xs ys : List Spending) :
    spent width (xs ++ ys) now = spent width xs now + spent width ys now := by
  simp [spent, List.filter_append]

theorem spent_singleton (x : Spending) :
    spent width [x] now = if now < x.time + width then x.amount else 0 := by
  by_cases hx : now < x.time + width
  · simp [spent, hx]
  · simp [spent, hx]

/-- As time passes, less and less is recent. -/
theorem spent_antitone (h : ∀ x ∈ spendings, 0 ≤ x.amount) {later : ℕ} (hle : now ≤ later) :
    spent width spendings later ≤ spent width spendings now := by
  induction spendings with
  | nil => exact le_rfl
  | cons x spendings ih =>
    have hx := h x (by simp)
    have hrest := ih fun y hy => h y (by simp [hy])
    rw [← List.singleton_append, spent_append, spent_append, spent_singleton, spent_singleton]
    split_ifs <;> omega

/-- The limiter has counted everything that is still recent. -/
structure Covers (width : ℕ) (w : Option Window) (spendings : List Spending) : Prop where
  nonneg : ∀ x ∈ spendings, 0 ≤ x.amount
  spent_le : ∀ now, (∀ x ∈ spendings, x.time ≤ now) →
    spent width spendings now ≤ Window.usedIn w

theorem covers_nil : Covers width none [] :=
  ⟨fun _ h => (nomatch h), fun _ _ => le_rfl⟩

/-- Counting more than was spent does no harm. -/
theorem Covers.mono (h : Covers width w spendings) {v : Option Window}
    (hle : Window.usedIn w ≤ Window.usedIn v) : Covers width v spendings :=
  ⟨h.nonneg, fun now hnow => (h.spent_le now hnow).trans hle⟩

/-- A window that opens when nothing is recent, or that stays open, covers one more spending. -/
theorem Covers.charge (h : Covers width w spendings) (hlater : ∀ x ∈ spendings, x.time ≤ now)
    (hamount : 0 ≤ amount)
    (hquiet : ∀ v, w = some v → width ≤ now - v.start → spent width spendings now = 0) :
    Covers width (some ((w.getD ⟨now, 0⟩).charge width now amount))
      (spendings ++ [⟨now, amount⟩]) := by
  refine ⟨fun x hx => ?_, fun later hnow => ?_⟩
  · rcases List.mem_append.mp hx with hx | hx
    · exact h.nonneg x hx
    · obtain rfl := List.mem_singleton.mp hx
      exact hamount
  · have hle : now ≤ later := hnow ⟨now, amount⟩ (by simp)
    have hbefore : ∀ x ∈ spendings, x.time ≤ later := fun x hx => (hlater x hx).trans hle
    have hold := h.spent_le later hbefore
    have hshrunk : spent width spendings later ≤ spent width spendings now :=
      spent_antitone h.nonneg hle
    have hone : spent width [⟨now, amount⟩] later ≤ amount := by
      rw [spent_singleton]
      show (if later < now + width then amount else 0) ≤ amount
      split_ifs <;> omega
    rw [spent_append]
    cases w with
    | none =>
      have hused : Window.usedIn (some ((Option.getD none (⟨now, 0⟩ : Window)).charge width now
          amount)) = amount := by
        simp only [Option.getD_none, Window.charge, Window.usedIn]
        split_ifs <;> simp
      rw [hused]
      have hzero : Window.usedIn none = 0 := rfl
      omega
    | some v =>
      show _ ≤ (v.charge width now amount).used
      unfold Window.charge
      split_ifs with hover
      · have hnone := hquiet v rfl hover
        show _ ≤ amount
        omega
      · have hused : Window.usedIn (some v) = v.used := rfl
        show _ ≤ v.used + amount
        omega

end RateWindow
