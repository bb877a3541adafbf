import Mathlib

/-! Logs of moves between states. A log is a trail when each move starts in the state that
the moves before it reached. -/

/-- The moves of the log lead from the first state to the last, one after the other. -/
def Trail {σ ε : Type*} (src dst : ε → σ) (first : σ) : List ε → σ → Prop
  | [], last => first = last
  | move :: moves, last => src move = first ∧ Trail src dst (dst move) moves last

namespace Trail

variable {σ ε : Type*} {src dst : ε → σ} {first last last' : σ} {log : List ε} {move : ε}

/-- A move can be logged exactly from the state that the log has reached. -/
theorem snoc_iff : Trail src dst first (log ++ [move]) last ↔
    Trail src dst first log (src move) ∧ dst move = last := by
  induction log generalizing first with
  | nil =>
    show src move = first ∧ dst move = last ↔ first = src move ∧ dst move = last
    rw [eq_comm]
  | cons head log ih =>
    show src head = first ∧ Trail src dst (dst head) (log ++ [move]) last ↔
      (src head = first ∧ Trail src dst (dst head) log (src move)) ∧ dst move = last
    rw [ih, and_assoc]

/-- A trail is continued from where it leads. -/
theorem append {log' : List ε} (h : Trail src dst first log last)
    (h' : Trail src dst last log' last') : Trail src dst first (log ++ log') last' := by
  induction log generalizing first with
  | nil =>
    have hfirst : first = last := h
    rw [hfirst]
    exact h'
  | cons head log ih => exact ⟨h.1, ih h.2⟩

/-- A log leads to one state only. -/
theorem last_unique (h : Trail src dst first log last) (h' : Trail src dst first log last') :
    last = last' := by
  induction log generalizing first with
  | nil =>
    have hfirst : first = last := h
    have hfirst' : first = last' := h'
    exact hfirst.symm.trans hfirst'
  | cons head log ih => exact ih h.2 h'.2

/-- A log leads to where its last move led, if it has one. -/
theorem last_eq_or_mem (h : Trail src dst first log last) :
    last = first ∨ ∃ move ∈ log, dst move = last := by
  induction log generalizing first with
  | nil =>
    have hfirst : first = last := h
    exact .inl hfirst.symm
  | cons head log ih =>
    rcases ih h.2 with hhere | ⟨move, hmem, hmove⟩
    · exact .inr ⟨head, List.mem_cons_self, hhere.symm⟩
    · exact .inr ⟨move, List.mem_cons_of_mem head hmem, hmove⟩

/-- What a move left was where the log started, or was reached by a move. -/
theorem src_eq_or_mem (h : Trail src dst first log last) (hmove : move ∈ log) :
    src move = first ∨ ∃ other ∈ log, dst other = src move := by
  induction log generalizing first with
  | nil => cases hmove
  | cons head log ih =>
    rcases List.mem_cons.mp hmove with rfl | hlater
    · exact .inl h.1
    · rcases ih h.2 hlater with hhere | ⟨other, hmem, hother⟩
      · exact .inr ⟨head, List.mem_cons_self, hhere.symm⟩
      · exact .inr ⟨other, List.mem_cons_of_mem head hmem, hother⟩

/-- What a move reached is where the log leads, or was left by a move. -/
theorem dst_eq_or_mem (h : Trail src dst first log last) (hmove : move ∈ log) :
    dst move = last ∨ ∃ other ∈ log, src other = dst move := by
  induction log generalizing first with
  | nil => cases hmove
  | cons head log ih =>
    rcases List.mem_cons.mp hmove with rfl | hlater
    · cases log with
      | nil =>
        have hlast : dst move = last := h.2
        exact .inl hlast
      | cons next log => exact .inr ⟨next, by simp, h.2.1⟩
    · rcases ih h.2 hlater with hhere | ⟨other, hmem, hother⟩
      · exact .inl hhere
      · exact .inr ⟨other, List.mem_cons_of_mem head hmem, hother⟩

section Rising

variable {rank : σ → ℕ}

/-- A log of moves that all go up leads up, and leaves nothing that it leads to. -/
theorem rank_le (h : Trail src dst first log last)
    (hup : ∀ move ∈ log, rank (src move) < rank (dst move)) :
    rank first ≤ rank last ∧ ∀ move ∈ log, rank first ≤ rank (src move) ∧
      rank (src move) < rank last := by
  induction log generalizing first with
  | nil =>
    have hfirst : first = last := h
    rw [hfirst]
    exact ⟨le_rfl, fun move hmove => absurd hmove List.not_mem_nil⟩
  | cons head log ih =>
    obtain ⟨hhead, hlog⟩ := List.forall_mem_cons.mp hup
    obtain ⟨hle, hall⟩ := ih h.2 hlog
    rw [h.1] at hhead
    refine ⟨hhead.le.trans hle, ?_⟩
    intro move hmove
    rcases List.mem_cons.mp hmove with rfl | hlater
    · rw [h.1]
      exact ⟨le_rfl, hhead.trans_le hle⟩
    · exact ⟨hhead.le.trans (hall move hlater).1, (hall move hlater).2⟩

/-- Moves that all go up reach nothing twice. -/
theorem nodup_dst (h : Trail src dst first log last)
    (hup : ∀ move ∈ log, rank (src move) < rank (dst move)) : (log.map dst).Nodup := by
  induction log generalizing first with
  | nil => exact List.nodup_nil
  | cons head log ih =>
    obtain ⟨-, hlog⟩ := List.forall_mem_cons.mp hup
    rw [List.map_cons, List.nodup_cons]
    refine ⟨?_, ih h.2 hlog⟩
    intro hagain
    obtain ⟨move, hmove, heq⟩ := List.mem_map.mp hagain
    have hbelow := ((h.2.rank_le hlog).2 move hmove).1
    have habove := hlog move hmove
    rw [heq] at habove
    omega

end Rising

end Trail
