import MentorsMind.Lib.Outcome

/-! Machines whose calls either succeed and move the state, or fail and leave it alone.
The induction over a run is done here once: each rule asks for one step only. -/

/-- `exec a s` is the state that call `a` leaves, when it succeeds in `s`. -/
structure Machine (σ α ε : Type*) where
  exec : α → σ → Except ε σ

namespace Machine

variable {σ α ε : Type*} (M : Machine σ α ε)

/-- A failing call reverts. -/
def apply (s : σ) (a : α) : σ :=
  match M.exec a s with
  | .ok t => t
  | .error _ => s

def run (s : σ) (as : List α) : σ := as.foldl M.apply s

/-- In the run of `as` from `s`, the call `a` that follows the calls `pre` succeeds
and leaves the state `t`. -/
def Executes (s : σ) (as pre : List α) (a : α) (t : σ) : Prop :=
  ∃ post, as = pre ++ a :: post ∧ M.exec a (M.run s pre) = .ok t

@[simp] theorem run_nil (s : σ) : M.run s [] = s := rfl

@[simp] theorem run_cons (s : σ) (a : α) (as : List α) :
    M.run s (a :: as) = M.run (M.apply s a) as := rfl

theorem run_append (s : σ) (as bs : List α) :
    M.run s (as ++ bs) = M.run (M.run s as) bs := by
  simp [run, List.foldl_append]

theorem run_snoc (s : σ) (as : List α) (a : α) :
    M.run s (as ++ [a]) = M.apply (M.run s as) a := by
  simp [run_append]

variable {M}

theorem apply_ok {s t : σ} {a : α} (h : M.exec a s = .ok t) : M.apply s a = t := by
  simp [apply, h]

theorem apply_error {s : σ} {a : α} {e : ε} (h : M.exec a s = .error e) :
    M.apply s a = s := by
  simp [apply, h]

/-- A call either succeeds or changes nothing. -/
theorem apply_cases (M : Machine σ α ε) (s : σ) (a : α) :
    (∃ t, M.exec a s = .ok t ∧ M.apply s a = t) ∨
      (∃ e, M.exec a s = .error e ∧ M.apply s a = s) := by
  cases h : M.exec a s with
  | ok t => exact .inl ⟨t, rfl, apply_ok h⟩
  | error e => exact .inr ⟨e, rfl, apply_error h⟩

theorem Executes.run_eq {s t : σ} {as pre : List α} {a : α}
    (h : M.Executes s as pre a t) : M.run s (pre ++ [a]) = t := by
  obtain ⟨post, -, hx⟩ := h
  rw [run_snoc, apply_ok hx]

theorem Executes.exec_eq {s t : σ} {as pre : List α} {a : α}
    (h : M.Executes s as pre a t) : M.exec a (M.run s pre) = .ok t := h.choose_spec.2

theorem Executes.mem {s t : σ} {as pre : List α} {a : α}
    (h : M.Executes s as pre a t) : a ∈ as := by
  obtain ⟨post, rfl, -⟩ := h
  simp

theorem Executes.append {s t : σ} {as pre : List α} {a : α}
    (h : M.Executes s as pre a t) (bs : List α) : M.Executes s (as ++ bs) pre a t := by
  obtain ⟨post, rfl, hx⟩ := h
  exact ⟨post ++ bs, by simp, hx⟩

theorem Executes.mono {s t : σ} {as bs pre : List α} {a : α}
    (h : M.Executes s as pre a t) (hp : as <+: bs) : M.Executes s bs pre a t := by
  obtain ⟨cs, rfl⟩ := hp
  exact h.append cs

theorem Executes.snoc_prefix {s t : σ} {as pre : List α} {a : α}
    (h : M.Executes s as pre a t) : pre ++ [a] <+: as := by
  obtain ⟨post, rfl, -⟩ := h
  exact ⟨post, by simp⟩

/-- Where in the run the call stands. -/
theorem Executes.eq_take {s t : σ} {as pre : List α} {a : α} (h : M.Executes s as pre a t) :
    pre = as.take pre.length ∧ as[pre.length]? = some a := by
  obtain ⟨post, rfl, -⟩ := h
  simp

theorem executes_snoc {s t : σ} {pre : List α} {a : α}
    (h : M.exec a (M.run s pre) = .ok t) : M.Executes s (pre ++ [a]) pre a t :=
  ⟨[], by simp, h⟩

/-- One more call in a run executes what was executed before, and itself if it succeeds. -/
theorem executes_append_singleton {s t : σ} {as pre : List α} {a b : α} :
    M.Executes s (as ++ [b]) pre a t ↔
      M.Executes s as pre a t ∨ (pre = as ∧ a = b ∧ M.exec b (M.run s as) = .ok t) := by
  constructor
  · rintro ⟨post, hpost, hx⟩
    rcases post.eq_nil_or_concat with rfl | ⟨post, c, rfl⟩
    · obtain ⟨rfl, hab⟩ := List.append_inj' hpost rfl
      obtain rfl : b = a := by simpa using hab
      exact .inr ⟨rfl, rfl, hx⟩
    · refine .inl ⟨post, ?_, hx⟩
      have hdrop := congrArg List.dropLast hpost
      rwa [List.dropLast_concat, List.concat_eq_append, ← List.cons_append, ← List.append_assoc,
        List.dropLast_concat] at hdrop
  · rintro (hx | ⟨rfl, rfl, hx⟩)
    · exact hx.append [b]
    · exact executes_snoc hx

theorem not_executes_nil {s t : σ} {pre : List α} {a : α} : ¬ M.Executes s [] pre a t := by
  intro h
  exact absurd h.mem (by simp)

/-- A failed call is not executed. -/
theorem executes_snoc_error {s t : σ} {as pre : List α} {a b : α} {e : ε}
    (h : M.exec b (M.run s as) = .error e) :
    M.Executes s (as ++ [b]) pre a t ↔ M.Executes s as pre a t := by
  rw [executes_append_singleton, h]
  simp

/-- A call of a kind that the run makes only at its end. -/
theorem Executes.eq_last {p : α → Prop} {s t : σ} {as pre : List α} {a b : α}
    (h : M.Executes s (as ++ [b]) pre a t) (hnone : ∀ x ∈ as, ¬ p x) (ha : p a) :
    pre = as ∧ a = b := by
  rcases executes_append_singleton.mp h with hbefore | ⟨hpre, hab, -⟩
  · exact absurd ha (hnone a hbefore.mem)
  · exact ⟨hpre, hab⟩

/-- A call that changed the state has succeeded. -/
theorem executes_of_run_ne {s : σ} {pre : List α} {a : α}
    (h : M.run s (pre ++ [a]) ≠ M.run s pre) :
    M.Executes s (pre ++ [a]) pre a (M.run s (pre ++ [a])) := by
  rw [run_snoc] at h ⊢
  obtain ⟨t, hx, ht⟩ | ⟨e, -, ht⟩ := apply_cases M (M.run s pre) a
  · rw [ht]
    exact executes_snoc hx
  · exact absurd ht h

/-- An invariant that also speaks of the calls made so far, where only the calls that the
run itself makes need to preserve it. -/
theorem run_history_of_executes {P : List α → σ → Prop} {s : σ} {as : List α} (h0 : P [] s)
    (hok : ∀ pre a t, M.Executes s as pre a t → P pre (M.run s pre) → P (pre ++ [a]) t)
    (herr : ∀ pre a e, P pre (M.run s pre) → M.exec a (M.run s pre) = .error e →
      P (pre ++ [a]) (M.run s pre)) : ∀ pre, pre <+: as → P pre (M.run s pre) := by
  intro pre
  induction pre using List.reverseRecOn with
  | nil => intro _; exact h0
  | append_singleton pre a ih =>
    intro hp
    have hpre := ih ((List.prefix_append pre [a]).trans hp)
    rw [run_snoc]
    obtain ⟨t, hx, ht⟩ | ⟨e, hx, ht⟩ := apply_cases M (M.run s pre) a
    · rw [ht]; exact hok pre a t ((executes_snoc hx).mono hp) hpre
    · rw [ht]; exact herr pre a e hpre hx

/-- An invariant that also speaks of the calls made so far. -/
theorem run_history {P : List α → σ → Prop} {s : σ} (h0 : P [] s)
    (hok : ∀ pre a t, P pre (M.run s pre) → M.exec a (M.run s pre) = .ok t → P (pre ++ [a]) t)
    (herr : ∀ pre a e, P pre (M.run s pre) → M.exec a (M.run s pre) = .error e →
      P (pre ++ [a]) (M.run s pre)) (as : List α) : P as (M.run s as) :=
  run_history_of_executes h0 (fun pre a t hx hpre => hok pre a t hpre hx.exec_eq) herr as
    List.prefix_rfl

/-- What holds at first and is preserved by every call that succeeds holds after any run. -/
theorem run_invariant {P : σ → Prop} {s : σ} (h0 : P s)
    (hstep : ∀ a s t, P s → M.exec a s = .ok t → P t) (as : List α) : P (M.run s as) :=
  run_history (P := fun _ => P) h0 (fun _ a t hs hx => hstep a _ t hs hx)
    (fun _ _ _ hs _ => hs) as

/-- As `run_invariant`, where only the calls that the run itself executes need to
preserve the invariant. -/
theorem run_invariant_of_executes {P : σ → Prop} {s : σ} {as : List α} (h0 : P s)
    (hstep : ∀ pre a t, M.Executes s as pre a t → P (M.run s pre) → P t) :
    ∀ pre, pre <+: as → P (M.run s pre) :=
  run_history_of_executes (P := fun _ => P) h0 hstep fun _ _ _ hpre _ => hpre

/-- A measure that no call of the run lowers only grows along the run. -/
theorem run_mono_of_executes {ν : Type*} [Preorder ν] {f : σ → ν} {s : σ} {as : List α}
    (hstep : ∀ pre a t, M.Executes s as pre a t → f (M.run s pre) ≤ f t) :
    ∀ pre later, pre <+: later → later <+: as → f (M.run s pre) ≤ f (M.run s later) := by
  rintro pre later ⟨post, rfl⟩
  induction post using List.reverseRecOn with
  | nil =>
    intro _
    rw [List.append_nil]
  | append_singleton post a ih =>
    intro hlater
    rw [← List.append_assoc] at hlater ⊢
    have hbefore := ih ((List.prefix_append _ _).trans hlater)
    rw [run_snoc]
    obtain ⟨t, hx, ht⟩ | ⟨e, -, ht⟩ := apply_cases M (M.run s (pre ++ post)) a
    · rw [ht]
      exact hbefore.trans (hstep _ a t ((executes_snoc hx).mono hlater))
    · rw [ht]
      exact hbefore

section Once

/-- What a call brings about and the later calls keep still holds after them. -/
theorem Executes.kept {D : σ → Prop} {s t : σ} {as pre : List α} {a : α}
    (h : M.Executes s as pre a t) (hdone : D t)
    (hkept : ∀ pre a t, M.Executes s as pre a t → D (M.run s pre) → D t) :
    ∀ later, pre ++ [a] <+: later → later <+: as → D (M.run s later) := by
  intro later hsince hlater
  refine run_history_of_executes (M := M) (P := fun later u => pre ++ [a] <+: later → D u)
    ?_ ?_ ?_ later hlater hsince
  · intro hnil
    exact absurd (List.prefix_nil.mp hnil) (by simp)
  · intro mid b u hx hmid hlonger
    rcases List.prefix_concat_iff.mp hlonger with heq | hbefore
    · have hu : M.run s (mid ++ [b]) = u := hx.run_eq
      rw [← hu, ← heq, h.run_eq]
      exact hdone
    · exact hkept mid b u hx (hmid hbefore)
  · intro mid b e hmid herror hlonger
    rcases List.prefix_concat_iff.mp hlonger with heq | hbefore
    · obtain ⟨rfl, hab⟩ := List.append_inj' heq rfl
      obtain rfl := List.singleton_inj.mp hab
      rw [h.exec_eq] at herror
      cases herror
    · exact hmid hbefore

/-- Calls of a kind that need something undone, and leave it done for good, happen once. -/
theorem Executes.unique {P : σ → α → σ → Prop} {D : σ → Prop} {s t t' : σ}
    {as pre pre' : List α} {a a' : α}
    (hfresh : ∀ pre a t, M.Executes s as pre a t → P (M.run s pre) a t → ¬ D (M.run s pre))
    (hdone : ∀ pre a t, M.Executes s as pre a t → P (M.run s pre) a t → D t)
    (hkept : ∀ pre a t, M.Executes s as pre a t → D (M.run s pre) → D t)
    (h : M.Executes s as pre a t) (hp : P (M.run s pre) a t)
    (h' : M.Executes s as pre' a' t') (hp' : P (M.run s pre') a' t') : pre = pre' := by
  have hbefore : ∀ {pre pre' : List α} {a a' : α} {t t' : σ}, M.Executes s as pre a t →
      P (M.run s pre) a t → M.Executes s as pre' a' t' → P (M.run s pre') a' t' →
      ¬ pre.length < pre'.length := by
    intro pre pre' a a' t t' h hp h' hp' hlt
    have hlater : pre' <+: as := (List.prefix_append pre' [a']).trans h'.snoc_prefix
    have hsince : pre ++ [a] <+: pre' := by
      apply List.prefix_of_prefix_length_le h.snoc_prefix hlater
      rw [List.length_append, List.length_singleton]
      omega
    exact hfresh pre' a' t' h' hp' (h.kept (hdone pre a t h hp) hkept pre' hsince hlater)
  have hlength : pre.length = pre'.length :=
    le_antisymm (not_lt.mp (hbefore h' hp' h hp)) (not_lt.mp (hbefore h hp h' hp'))
  rw [h.eq_take.1, h'.eq_take.1, hlength]

end Once

section ExecAll

variable (M)

/-- The calls one after the other, all of which have to succeed. -/
def execAll : σ → List α → Except ε σ
  | s, [] => .ok s
  | s, a :: as => M.exec a s >>= fun t => execAll t as

@[simp] theorem execAll_nil (s : σ) : M.execAll s [] = .ok s := rfl

variable {M}

theorem execAll_snoc_eq_ok {s u : σ} {as : List α} {a : α} :
    M.execAll s (as ++ [a]) = .ok u ↔ ∃ t, M.execAll s as = .ok t ∧ M.exec a t = .ok u := by
  induction as generalizing s with
  | nil => simp [execAll]
  | cons b as ih =>
    simp only [List.cons_append, execAll, Outcome.bind_eq_ok, ih]
    constructor
    · rintro ⟨r, hb, t, has, ha⟩
      exact ⟨t, ⟨r, hb, has⟩, ha⟩
    · rintro ⟨t, ⟨r, hb, has⟩, ha⟩
      exact ⟨r, hb, t, has, ha⟩

/-- What every call preserves, they preserve together. -/
theorem execAll_invariant {P : σ → Prop} (hstep : ∀ a s t, P s → M.exec a s = .ok t → P t)
    {s t : σ} {as : List α} (h0 : P s) (h : M.execAll s as = .ok t) : P t := by
  induction as generalizing s with
  | nil =>
    obtain rfl : s = t := by simpa using h
    exact h0
  | cons a as ih =>
    simp only [execAll, Outcome.bind_eq_ok] at h
    obtain ⟨r, hr, hrest⟩ := h
    exact ih (hstep a s r h0 hr) hrest

theorem execAll_cons {s t u : σ} {as : List α} {a : α} (h : M.exec a s = .ok t)
    (hrest : M.execAll t as = .ok u) : M.execAll s (a :: as) = .ok u := by
  rw [execAll, h]
  exact hrest

end ExecAll

section Collect

variable {β : Type*}

variable (M)

/-- What `f` sees in the calls of a run that succeed, each taken with the state before it
and the state after it. -/
def collect (f : σ → α → σ → Option β) : σ → List α → List β
  | _, [] => []
  | s, a :: as =>
      (match M.exec a s with
        | .ok t => (f s a t).toList
        | .error _ => []) ++ collect f (M.apply s a) as

@[simp] theorem collect_nil (f : σ → α → σ → Option β) (s : σ) : M.collect f s [] = [] := rfl

theorem collect_append (f : σ → α → σ → Option β) (s : σ) (as bs : List α) :
    M.collect f s (as ++ bs) = M.collect f s as ++ M.collect f (M.run s as) bs := by
  induction as generalizing s with
  | nil => simp
  | cons a as ih => simp only [List.cons_append, collect, ih, run_cons, List.append_assoc]

variable {M}

theorem collect_snoc_ok {f : σ → α → σ → Option β} {s t : σ} {as : List α} {a : α}
    (h : M.exec a (M.run s as) = .ok t) :
    M.collect f s (as ++ [a]) = M.collect f s as ++ (f (M.run s as) a t).toList := by
  simp [collect_append, collect, h]

theorem collect_snoc_error {f : σ → α → σ → Option β} {s : σ} {as : List α} {a : α} {e : ε}
    (h : M.exec a (M.run s as) = .error e) :
    M.collect f s (as ++ [a]) = M.collect f s as := by
  simp [collect_append, collect, h]

theorem exists_of_mem_collect {f : σ → α → σ → Option β} {s : σ} {as : List α} {b : β}
    (h : b ∈ M.collect f s as) :
    ∃ pre a t, M.Executes s as pre a t ∧ f (M.run s pre) a t = some b := by
  induction as using List.reverseRecOn with
  | nil => simp at h
  | append_singleton as a ih =>
    cases hx : M.exec a (M.run s as) with
    | error e =>
      rw [collect_snoc_error hx] at h
      obtain ⟨pre, c, t, hc, hb⟩ := ih h
      exact ⟨pre, c, t, hc.append [a], hb⟩
    | ok t =>
      rw [collect_snoc_ok hx] at h
      rcases List.mem_append.mp h with hbefore | hnow
      · obtain ⟨pre, c, t', hc, hb⟩ := ih hbefore
        exact ⟨pre, c, t', hc.append [a], hb⟩
      · exact ⟨as, a, t, executes_snoc hx, Option.mem_toList.mp hnow⟩

end Collect

section Switch

theorem Executes.length_lt {s t : σ} {as pre : List α} {a : α}
    (h : M.Executes s as pre a t) : pre.length < as.length := by
  obtain ⟨post, rfl, -⟩ := h
  simp

/-- What was executed earlier in the run was executed in the run up to the later call. -/
theorem Executes.before {s t u : σ} {as pre later : List α} {a b : α}
    (h : M.Executes s as pre a t) (hlater : M.Executes s as later b u)
    (hlt : pre.length < later.length) : M.Executes s later pre a t := by
  refine (executes_snoc h.exec_eq).mono (List.prefix_of_prefix_length_le h.snoc_prefix
    ((List.prefix_append later [b]).trans hlater.snoc_prefix) ?_)
  simp only [List.length_append, List.length_singleton]
  omega

/-- A call that is not the first of the run is one of the others. -/
theorem Executes.eq_nil_or_mem {s t : σ} {as pre : List α} {a b : α}
    (h : M.Executes s (b :: as) pre a t) : pre = [] ∨ a ∈ as := by
  obtain ⟨post, hpost, -⟩ := h
  cases pre with
  | nil => exact .inl rfl
  | cons c pre =>
    obtain ⟨-, rfl⟩ := List.cons.inj hpost
    exact .inr (by simp)

section InState

variable {on off : σ → α → Prop}

variable (M) in
/-- The run has executed a call that turns something on, and none since that turns it off,
where both may depend on the state that the call finds. -/
def SwitchedOnIn (on off : σ → α → Prop) (s : σ) (as : List α) : Prop :=
  ∃ pre a t, M.Executes s as pre a t ∧ on (M.run s pre) a ∧
    ∀ later b u, M.Executes s as later b u → pre.length < later.length →
      ¬ off (M.run s later) b

theorem switchedOnIn_snoc_ok {s t : σ} {as : List α} {a : α}
    (h : M.exec a (M.run s as) = .ok t) :
    M.SwitchedOnIn on off s (as ++ [a]) ↔
      on (M.run s as) a ∨ (¬ off (M.run s as) a ∧ M.SwitchedOnIn on off s as) := by
  constructor
  · rintro ⟨pre, b, u, hb, hon, hoff⟩
    rcases executes_append_singleton.mp hb with hbefore | ⟨rfl, rfl, -⟩
    · refine .inr ⟨hoff as a t (executes_snoc h) hbefore.length_lt, pre, b, u, hbefore, hon, ?_⟩
      intro later c v hc
      exact hoff later c v (hc.append [a])
    · exact .inl hon
  · rintro (hon | ⟨hnot, pre, b, u, hb, hon, hoff⟩)
    · refine ⟨as, a, t, executes_snoc h, hon, ?_⟩
      intro later b u hb hlater
      have hlength := hb.length_lt
      simp only [List.length_append, List.length_singleton] at hlength
      omega
    · refine ⟨pre, b, u, hb.append [a], hon, ?_⟩
      intro later c v hc hlater
      rcases executes_append_singleton.mp hc with hbefore | ⟨rfl, rfl, -⟩
      · exact hoff later c v hbefore hlater
      · exact hnot

theorem switchedOnIn_snoc_error {s : σ} {as : List α} {a : α} {e : ε}
    (h : M.exec a (M.run s as) = .error e) :
    M.SwitchedOnIn on off s (as ++ [a]) ↔ M.SwitchedOnIn on off s as := by
  simp only [SwitchedOnIn, executes_snoc_error h]

theorem not_switchedOnIn_nil {s : σ} : ¬ M.SwitchedOnIn on off s [] := by
  rintro ⟨pre, a, t, ha, -⟩
  exact not_executes_nil ha

/-- What calls that turn on bring about and all but those that turn off keep. -/
theorem of_switchedOnIn {P : σ → Prop} {s : σ} {as : List α}
    (hon : ∀ a s t, M.exec a s = .ok t → on s a → P t)
    (hkeep : ∀ a s t, M.exec a s = .ok t → ¬ off s a → P s → P t)
    (h : M.SwitchedOnIn on off s as) : P (M.run s as) := by
  refine run_history (M := M) (P := fun as t => M.SwitchedOnIn on off s as → P t) ?_ ?_ ?_ as h
  · intro hnil
    exact absurd hnil not_switchedOnIn_nil
  · intro pre a t hpre hx hswitched
    rcases (switchedOnIn_snoc_ok hx).mp hswitched with hnow | ⟨hoff, hbefore⟩
    · exact hon a _ t hx hnow
    · exact hkeep a _ t hx hoff (hpre hbefore)
  · intro pre a e hpre herror hswitched
    exact hpre ((switchedOnIn_snoc_error herror).mp hswitched)

end InState

variable {on off : α → Prop}

variable (M) in
/-- The run has executed a call that turns something on, and none since that turns it off. -/
def SwitchedOn (on off : α → Prop) (s : σ) (as : List α) : Prop :=
  ∃ pre a t, M.Executes s as pre a t ∧ on a ∧
    ∀ later b u, M.Executes s as later b u → pre.length < later.length → ¬ off b

theorem switchedOn_snoc_ok {s t : σ} {as : List α} {a : α} (h : M.exec a (M.run s as) = .ok t) :
    M.SwitchedOn on off s (as ++ [a]) ↔ on a ∨ (¬ off a ∧ M.SwitchedOn on off s as) :=
  @switchedOnIn_snoc_ok _ _ _ M (fun _ => on) (fun _ => off) s t as a h

theorem switchedOn_snoc_error {s : σ} {as : List α} {a : α} {e : ε}
    (h : M.exec a (M.run s as) = .error e) :
    M.SwitchedOn on off s (as ++ [a]) ↔ M.SwitchedOn on off s as :=
  @switchedOnIn_snoc_error _ _ _ M (fun _ => on) (fun _ => off) s as a e h

theorem not_switchedOn_nil {s : σ} : ¬ M.SwitchedOn on off s [] :=
  @not_switchedOnIn_nil _ _ _ M (fun _ => on) (fun _ => off) s

/-- A P that `on` calls set, `off` calls clear and other calls keep says whether it is
switched on. -/
theorem switchedOn_iff {P : σ → Prop} {s : σ} (h0 : ¬ P s)
    (hon : ∀ a s t, M.exec a s = .ok t → on a → P t)
    (hoff : ∀ a s t, M.exec a s = .ok t → off a → ¬ P t)
    (hkeep : ∀ a s t, M.exec a s = .ok t → ¬ on a → ¬ off a → (P t ↔ P s))
    (as : List α) : M.SwitchedOn on off s as ↔ P (M.run s as) := by
  refine run_history (M := M) (P := fun as t => M.SwitchedOn on off s as ↔ P t) ?_ ?_ ?_ as
  · simp only [h0, iff_false]
    exact not_switchedOn_nil
  · intro pre a t hpre h
    rw [switchedOn_snoc_ok h]
    by_cases ha : on a
    · simp [ha, hon a _ t h ha]
    · by_cases hb : off a
      · simp [ha, hb, hoff a _ t h hb]
      · rw [hkeep a _ t h ha hb, hpre]
        simp [ha, hb]
  · intro pre a e hpre h
    rw [switchedOn_snoc_error h]
    exact hpre

end Switch

variable (M)

/-- The sum of `f` over the calls of a run that succeed, each taken with the state
before it and the state after it. -/
def tally (f : σ → α → σ → ℤ) : σ → List α → ℤ
  | _, [] => 0
  | s, a :: as =>
      (match M.exec a s with
        | .ok t => f s a t
        | .error _ => 0) + tally f (M.apply s a) as

@[simp] theorem tally_nil (f : σ → α → σ → ℤ) (s : σ) : M.tally f s [] = 0 := rfl

theorem tally_append (f : σ → α → σ → ℤ) (s : σ) (as bs : List α) :
    M.tally f s (as ++ bs) = M.tally f s as + M.tally f (M.run s as) bs := by
  induction as generalizing s with
  | nil => simp
  | cons a as ih => simp only [List.cons_append, tally, ih, run_cons, add_assoc]

variable {M}

theorem tally_snoc_ok {f : σ → α → σ → ℤ} {s t : σ} {as : List α} {a : α}
    (h : M.exec a (M.run s as) = .ok t) :
    M.tally f s (as ++ [a]) = M.tally f s as + f (M.run s as) a t := by
  simp [tally_append, tally, h]

theorem tally_snoc_error {f : σ → α → σ → ℤ} {s : σ} {as : List α} {a : α} {e : ε}
    (h : M.exec a (M.run s as) = .error e) :
    M.tally f s (as ++ [a]) = M.tally f s as := by
  simp [tally_append, tally, h]

/-- What the calls of a run add up to is zero exactly if each of them adds nothing, as long
as none takes anything away. -/
theorem tally_eq_zero_iff {f : σ → α → σ → ℤ} {s : σ} {as : List α}
    (hnonneg : ∀ pre a t, M.Executes s as pre a t → 0 ≤ f (M.run s pre) a t) :
    M.tally f s as = 0 ↔ ∀ pre a t, M.Executes s as pre a t → f (M.run s pre) a t = 0 := by
  have hsums : ∀ pre, pre <+: as → 0 ≤ M.tally f s pre ∧ (M.tally f s pre = 0 ↔
      ∀ early a t, M.Executes s pre early a t → f (M.run s early) a t = 0) := by
    refine run_history_of_executes (M := M) (s := s) (P := fun pre _ => 0 ≤ M.tally f s pre ∧
      (M.tally f s pre = 0 ↔
        ∀ early a t, M.Executes s pre early a t → f (M.run s early) a t = 0)) ?_ ?_ ?_
    · exact ⟨le_rfl, fun _ early a t hx => absurd hx not_executes_nil, fun _ => rfl⟩
    · rintro pre a t hx ⟨hpre, hzero⟩
      have hterm := hnonneg pre a t hx
      rw [tally_snoc_ok hx.exec_eq]
      refine ⟨add_nonneg hpre hterm, ?_⟩
      rw [add_eq_zero_iff_of_nonneg hpre hterm, hzero]
      constructor
      · rintro ⟨hearly, hlast⟩ early b u hb
        rcases executes_append_singleton.mp hb with hbefore | ⟨rfl, rfl, hu⟩
        · exact hearly early b u hbefore
        · obtain rfl := Except.ok.inj (hu.symm.trans hx.exec_eq)
          exact hlast
      · intro hall
        exact ⟨fun early b u hb => hall early b u (hb.append [a]),
          hall pre a t (executes_snoc hx.exec_eq)⟩
    · rintro pre a e ⟨hpre, hzero⟩ herror
      rw [tally_snoc_error herror]
      refine ⟨hpre, hzero.trans ?_⟩
      simp only [executes_snoc_error herror]
  exact (hsums as List.prefix_rfl).2

/-- The calls add up to zero at every moment of the run exactly if each of them adds nothing. -/
theorem tally_prefixes_eq_zero_iff {f : σ → α → σ → ℤ} {s : σ} {as : List α} :
    (∀ pre, pre <+: as → M.tally f s pre = 0) ↔
      ∀ pre a t, M.Executes s as pre a t → f (M.run s pre) a t = 0 := by
  constructor
  · intro hsums pre a t hx
    have hafter := hsums (pre ++ [a]) hx.snoc_prefix
    rw [tally_snoc_ok hx.exec_eq,
      hsums pre ((List.prefix_append pre [a]).trans hx.snoc_prefix), zero_add] at hafter
    exact hafter
  · intro hzero
    refine run_history_of_executes (M := M) (s := s) (P := fun pre _ => M.tally f s pre = 0)
      rfl ?_ ?_
    · intro pre a t hx hpre
      rw [tally_snoc_ok hx.exec_eq, hpre, hzero pre a t hx, add_zero]
    · intro pre a e hpre herror
      rw [tally_snoc_error herror, hpre]

end Machine
