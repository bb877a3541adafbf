import MentorsMind.Consensus.Rounds
import MentorsMind.Lib.BigEndian
import MentorsMind.Lib.TopBoard

/-! The selection of the validators of an epoch by scores that are weighted with their stakes, for a
given output of the random function. The evaluation of that function always panics. -/
namespace Consensus.Selection
open Outcome Soroban BestFirst

structure VrfOutput where
  randomness : Hash
  proof : Hash
  evaluatedAt : ℕ
  inputSeed : Hash

structure ValidatorSelection (Addr : Type) where
  epoch : ℕ
  validators : List Addr
  quorumThreshold : ℕ
  vrfOutput : VrfOutput
  totalStake : ℤ

inductive VrfError where
  | noValidators
  | insufficientValidators
  | invalidProof
  | epochAlreadyFinalized
  | epochNotStarted

def VrfError.code : VrfError → ℕ
  | .noValidators => 1
  | .insufficientValidators => 2
  | .invalidProof => 3
  | .epochAlreadyFinalized => 4
  | .epochNotStarted => 5

def VrfError.trap (e : VrfError) : Trap := .contractError e.code

def stakeWeightDivisor : ℤ := 1000

section Evaluation

variable (sha256 : List UInt8 → Hash)

/-- Writes one byte of an array. -/
def writeByte (array : List UInt8) (index : ℕ) (byte : UInt8) : Result (List UInt8) := do
  require (index < array.length) (.panic ("index out of bounds: the len is " ++
    toString array.length ++ " but the index is " ++ toString index))
  pure (array.set index byte)

/-- The loop that puts the bytes of the epoch behind the first 32 bytes of an array. -/
def writeEpoch (epoch : ℕ) (array : List UInt8) : Result (List UInt8) :=
  (BigEndian.bytes 8 epoch).zipIdx.foldlM (fun array entry =>
    if entry.2 + 32 < 64 then writeByte array (entry.2 + 32) entry.1 else pure array) array

/-- The array that is written to has the 32 bytes of the seed and no more. -/
def computeVrfInput (baseSeed : Hash) (epoch : ℕ) : Result Hash := do
  let combined ← writeEpoch epoch (BigEndian.bytes 32 baseSeed.toNat)
  pure (sha256 combined)

def evaluateVrf (now : ℕ) (seed : Hash) (epoch : ℕ) : Result VrfOutput := do
  let inputSeed ← computeVrfInput sha256 seed epoch
  let randomness := sha256 (BigEndian.bytes 32 inputSeed.toNat)
  let proofInput ← writeEpoch epoch
    (BigEndian.bytes 32 randomness.toNat ++ List.replicate 32 0)
  pure ⟨randomness, sha256 proofInput, now, inputSeed⟩

end Evaluation

/-- `i128::saturating_mul` -/
def saturatingMul (a b : ℤ) : ℤ := max (-(2 ^ 127)) (min (a * b) (2 ^ 127 - 1))

section Scores

variable {Addr : Type} (sha256 : List UInt8 → Hash) (toXdr : Addr → List UInt8)

/-- The first twelve bytes of a digest of the validator and the randomness. -/
def baseScore (randomness : Hash) (validator : Addr) : ℤ :=
  let addrHash := sha256 (toXdr validator)
  let scoreInput := BigEndian.bytes 32 addrHash.toNat ++ BigEndian.bytes 32 randomness.toNat
  ((sha256 scoreInput).toNat / 2 ^ 160 : ℕ)

def weightedScore (randomness : Hash) (validator : Addr) (stake : ℤ) : ℤ :=
  (saturatingMul (baseScore sha256 toXdr randomness validator) stake).tdiv stakeWeightDivisor

/-- A validator without an entry in the list of stakes has none. -/
def scoredValidators (randomness : Hash) (eligibleValidators : List Addr) (stakes : List ℤ) :
    List (Addr × ℤ) :=
  eligibleValidators.zipIdx.map fun entry =>
    (entry.1, weightedScore sha256 toXdr randomness entry.1 (stakes[entry.2]?.getD 0))

/-- So many rounds, each of which takes the best of the remaining validators. -/
def selectRounds : ℕ → List Addr → List (Addr × ℤ) → Result (List Addr)
  | 0, selected, _ => pure selected
  | rounds + 1, selected, remaining => do
    let bestIdx := (scan Prod.snd (-1) remaining).1
    let best ← expect remaining[bestIdx]? (.panic "called `Option::unwrap()` on a `None` value")
    selectRounds rounds (selected ++ [best.1]) (remaining.eraseIdx bestIdx)

/-- The sum over all stakes. -/
def totalStake (count : ℕ) (stakes : List ℤ) : Result ℤ :=
  ((List.range count).filterMap fun i => stakes[i]?).foldlM (fun sum stake => i128 (sum + stake)) 0

/-- `select_validators_for_epoch`, where `vrf` is what the evaluation of the random function comes
to. -/
def selectValidatorsForEpoch (vrf : Result VrfOutput) (epoch : ℕ) (eligibleValidators : List Addr)
    (stakes : List ℤ) (maxValidators : ℕ) : Result (ValidatorSelection Addr) := do
  let count := eligibleValidators.length
  require (count ≠ 0) VrfError.noValidators.trap
  require (minValidators ≤ count) VrfError.insufficientValidators.trap
  let vrfOutput ← vrf
  let scored := scoredValidators sha256 toXdr vrfOutput.randomness eligibleValidators stakes
  let selected ← selectRounds (min maxValidators count) [] scored
  let total ← totalStake count stakes
  pure {
    epoch := epoch
    validators := selected
    quorumThreshold := computeQuorumThreshold selected.length
    vrfOutput := vrfOutput
    totalStake := total }

end Scores

section Evaluation

variable {Addr : Type} (sha256 : List UInt8 → Hash)

/-- What a write to the byte behind the seed comes to. -/
def seedOverrun : Trap := .panic "index out of bounds: the len is 32 but the index is 32"

theorem computeVrfInput_panics (baseSeed : Hash) (epoch : ℕ) :
    computeVrfInput sha256 baseSeed epoch = .error seedOverrun := by
  have hlength : (BigEndian.bytes 32 baseSeed.toNat).length = 32 := BigEndian.length_bytes 32 _
  obtain ⟨first, rest, hbytes⟩ : ∃ first rest, BigEndian.bytes 8 epoch = first :: rest :=
    List.exists_cons_of_length_eq_add_one (BigEndian.length_bytes 8 epoch)
  -- the first round of the loop already writes behind the end
  have hfirst : writeByte (BigEndian.bytes 32 baseSeed.toNat) 32 first = .error seedOverrun := by
    unfold writeByte require
    rw [if_neg (by omega), hlength]
    rfl
  unfold computeVrfInput writeEpoch
  rw [hbytes, List.zipIdx_cons, List.foldlM_cons]
  show ((writeByte (BigEndian.bytes 32 baseSeed.toNat) 32 first >>= _) >>= _) = _
  rw [hfirst]
  rfl

theorem evaluateVrf_panics (now : ℕ) (seed : Hash) (epoch : ℕ) :
    evaluateVrf sha256 now seed epoch = .error seedOverrun := by
  rw [evaluateVrf, computeVrfInput_panics]
  rfl

/-- Every selection among enough validators panics before it has an output to work with. -/
theorem selectValidatorsForEpoch_panics (toXdr : Addr → List UInt8) (now : ℕ) (seed : Hash)
    (epoch : ℕ) {eligible : List Addr} (stakes : List ℤ) (maxValidators : ℕ)
    (hfour : minValidators ≤ eligible.length) :
    selectValidatorsForEpoch sha256 toXdr (evaluateVrf sha256 now seed epoch) epoch eligible
      stakes maxValidators = .error seedOverrun := by
  have hsome : require (eligible.length ≠ 0) VrfError.noValidators.trap = .ok () :=
    if_pos (by unfold minValidators at hfour; omega)
  have henough : require (minValidators ≤ eligible.length)
      VrfError.insufficientValidators.trap = .ok () := if_pos hfour
  simp only [selectValidatorsForEpoch, hsome, henough, evaluateVrf_panics]
  rfl

end Evaluation

variable {Addr : Type} [DecidableEq Addr]

section Law

variable (sha256 : List UInt8 → Hash) (toXdr : Addr → List UInt8)

def stakeOf (eligible : List Addr) (stakes : List ℤ) (validator : Addr) : ℤ :=
  stakes[eligible.idxOf validator]?.getD 0

def scoreOf (randomness : Hash) (eligible : List Addr) (stakes : List ℤ) (validator : Addr) : ℤ :=
  weightedScore sha256 toXdr randomness validator (stakeOf eligible stakes validator)

/-- What a selection is to be. -/
structure SelectionSound (vrfOutput : VrfOutput) (epoch : ℕ) (eligible : List Addr)
    (stakes : List ℤ) (maxValidators : ℕ) (selection : ValidatorSelection Addr) : Prop where
  returned : selectValidatorsForEpoch sha256 toXdr (.ok vrfOutput) epoch eligible stakes
    maxValidators = .ok selection
  distinct : selection.validators.Nodup
  candidates : ∀ v ∈ selection.validators, v ∈ eligible
  enough : selection.validators.length = max (min maxValidators eligible.length) 4
  best : ∀ v ∈ selection.validators, ∀ w ∈ eligible, w ∉ selection.validators →
    scoreOf sha256 toXdr vrfOutput.randomness eligible stakes w ≤
      scoreOf sha256 toXdr vrfOutput.randomness eligible stakes v
  stake : selection.totalStake = (selection.validators.map (stakeOf eligible stakes)).sum

/-- The order of selection: by score, and for equal scores by the place in the list. -/
def Precedes (randomness : Hash) (eligible : List Addr) (stakes : List ℤ) (v w : Addr) : Prop :=
  Ahead (scoreOf sha256 toXdr randomness eligible stakes) eligible.idxOf v w

instance (randomness : Hash) (eligible : List Addr) (stakes : List ℤ) :
    DecidableRel (Precedes sha256 toXdr randomness eligible stakes) :=
  fun _ _ => inferInstanceAs (Decidable (Ahead _ _ _ _))

end Law

variable {sha256 : List UInt8 → Hash} {toXdr : Addr → List UInt8} {eligible : List Addr}
  {stakes : List ℤ} {randomness : Hash} {maxValidators epoch : ℕ} {vrfOutput : VrfOutput}

section Rounds

omit [DecidableEq Addr] in
theorem weightedScore_nonneg {validator : Addr} {stake : ℤ} (hstake : 0 ≤ stake) :
    0 ≤ weightedScore sha256 toXdr randomness validator stake := by
  have hproduct : 0 ≤ baseScore sha256 toXdr randomness validator * stake :=
    mul_nonneg (Int.natCast_nonneg _) hstake
  unfold weightedScore saturatingMul stakeWeightDivisor
  apply Int.tdiv_nonneg _ (by norm_num)
  omega

theorem scoredValidators_eq (hdistinct : eligible.Nodup) :
    scoredValidators sha256 toXdr randomness eligible stakes =
      eligible.map fun v => (v, scoreOf sha256 toXdr randomness eligible stakes v) := by
  apply List.ext_getElem
  · simp [scoredValidators]
  · intro i hi hi'
    simp only [List.length_map] at hi'
    simp [scoredValidators, scoreOf, stakeOf, hdistinct.idxOf_getElem i hi']

/-- The place of an entry among the eligible validators. -/
def place (eligible : List Addr) (entry : Addr × ℤ) : ℕ := eligible.idxOf entry.1

theorem map_sorted (hdistinct : eligible.Nodup) (score : Addr → ℤ) :
    (eligible.map fun v => (v, score v)).Pairwise fun a b =>
      place eligible a < place eligible b := by
  rw [List.pairwise_map, List.pairwise_iff_getElem]
  intro i j hi hj hij
  rw [place, place, hdistinct.idxOf_getElem i hi, hdistinct.idxOf_getElem j hj]
  exact hij

omit [DecidableEq Addr] in
/-- Every round picks one more of the validators that remain. -/
theorem selectRounds_ok {all picked rest : List (Addr × ℤ)} {pos : Addr × ℤ → ℕ} {rounds : ℕ}
    (hsplit : Split Prod.snd pos all picked rest) (habove : ∀ entry ∈ all, -1 < entry.2)
    (hrounds : rounds ≤ rest.length) : ∃ picked' rest',
      selectRounds rounds (picked.map Prod.fst) rest = .ok (picked'.map Prod.fst) ∧
        Split Prod.snd pos all picked' rest' ∧ picked'.length = picked.length + rounds := by
  induction rounds generalizing picked rest with
  | zero => exact ⟨picked, rest, rfl, hsplit, rfl⟩
  | succ rounds ih =>
    have hne : rest ≠ [] := List.length_pos_iff.mp (by omega)
    have hbest : Best Prod.snd rest (scan Prod.snd (-1) rest) :=
      scan_best hne fun entry hentry =>
        habove entry (hsplit.perm.mem_iff.mp (List.mem_append_right picked hentry))
    obtain ⟨best, hget, -⟩ := hbest.taken
    have hlt := (List.getElem?_eq_some_iff.mp hget).1
    obtain ⟨picked', rest', hselect, hsplit', hlength⟩ := ih (hsplit.pick hbest hget) (by
      rw [List.length_eraseIdx_of_lt hlt]
      omega)
    refine ⟨picked', rest', ?_, hsplit', ?_⟩
    · rw [selectRounds, hget, ← hselect, List.map_append, List.map_singleton]
      rfl
    · rw [hlength, List.length_append, List.length_singleton]
      omega

end Rounds

section Stakes

omit [DecidableEq Addr] in
theorem foldlM_i128 {listed : List ℤ} {start total : ℤ} (hnonneg : ∀ stake ∈ listed, 0 ≤ stake)
    (hstart : 0 ≤ start ∧ start < 2 ^ 127) :
    listed.foldlM (fun sum stake => i128 (sum + stake)) start = .ok total ↔
      total = start + listed.sum ∧ total < 2 ^ 127 := by
  induction listed generalizing start with
  | nil =>
    rw [List.foldlM_nil, pure_eq_ok, List.sum_nil, add_zero]
    constructor
    · rintro rfl
      exact ⟨rfl, hstart.2⟩
    · rintro ⟨rfl, -⟩
      rfl
  | cons stake listed ih =>
    have hstake : 0 ≤ stake := hnonneg stake (by simp)
    have hrest : ∀ later ∈ listed, 0 ≤ later :=
      fun later hlater => hnonneg later (List.mem_cons_of_mem _ hlater)
    have hsum := List.sum_nonneg hrest
    rw [List.foldlM_cons, bind_eq_ok, List.sum_cons]
    simp only [i128_eq_ok]
    constructor
    · rintro ⟨sum, ⟨hfits, rfl⟩, htotal⟩
      obtain ⟨htotal, hlt⟩ := (ih hrest ⟨by omega, hfits.2⟩).mp htotal
      exact ⟨by omega, hlt⟩
    · rintro ⟨htotal, hlt⟩
      refine ⟨start + stake, ⟨⟨by omega, by omega⟩, rfl⟩, ?_⟩
      exact (ih hrest ⟨by omega, by omega⟩).mpr ⟨by omega, hlt⟩

theorem filterMap_range (stakes : List ℤ) (count : ℕ) :
    ((List.range count).filterMap fun i => stakes[i]?) = stakes.take count := by
  induction count with
  | zero => simp
  | succ count ih =>
    rw [List.range_succ, List.filterMap_append, ih, List.take_add_one]
    cases hstake : stakes[count]? <;> simp [hstake]

theorem totalStake_eq_ok {count : ℕ} {total : ℤ} (hnonneg : ∀ stake ∈ stakes, 0 ≤ stake) :
    totalStake count stakes = .ok total ↔
      total = (stakes.take count).sum ∧ total < 2 ^ 127 := by
  rw [totalStake, filterMap_range, foldlM_i128 (fun stake hstake =>
    hnonneg stake (List.mem_of_mem_take hstake)) ⟨le_rfl, by norm_num⟩, zero_add]

/-- Summed over the validators, the stakes are those that the list has for them. -/
theorem sum_stakeOf (hdistinct : eligible.Nodup) (stakes : List ℤ) :
    (eligible.map (stakeOf eligible stakes)).sum = (stakes.take eligible.length).sum := by
  have hmap : eligible.map (stakeOf eligible stakes) =
      (List.range eligible.length).map fun i => stakes[i]?.getD 0 := by
    apply List.ext_getElem
    · simp
    · intro i hi hi'
      simp only [List.length_map] at hi
      simp [stakeOf, hdistinct.idxOf_getElem i hi]
  rw [hmap]
  induction eligible.length with
  | zero => simp
  | succ count ih =>
    rw [List.range_succ, List.map_append, List.sum_append, ih, List.take_add_one, List.sum_append]
    cases hstake : stakes[count]? <;> simp [hstake]

theorem stakeOf_nonneg (hnonneg : ∀ stake ∈ stakes, 0 ≤ stake) (v : Addr) :
    0 ≤ stakeOf eligible stakes v := by
  unfold stakeOf
  cases hstake : stakes[eligible.idxOf v]? with
  | none => exact le_rfl
  | some stake => exact hnonneg stake (List.mem_of_getElem? hstake)

end Stakes

section Selection

/-- The selected validators and the others, in the order of selection. -/
structure Selected (sha256 : List UInt8 → Hash) (toXdr : Addr → List UInt8) (randomness : Hash)
    (eligible : List Addr) (stakes : List ℤ) (count : ℕ) (selected others : List Addr) :
    Prop where
  perm : (selected ++ others).Perm eligible
  length : selected.length = count
  precede : ∀ v ∈ selected, ∀ w ∈ others, Precedes sha256 toXdr randomness eligible stakes v w
  mem_iff : ∀ v ∈ eligible, v ∈ selected ↔
    (eligible.countP fun w => decide (Precedes sha256 toXdr randomness eligible stakes w v)) < count

theorem selectRounds_selected (sha256 : List UInt8 → Hash) (toXdr : Addr → List UInt8)
    (randomness : Hash) (hdistinct : eligible.Nodup) (hnonneg : ∀ stake ∈ stakes, 0 ≤ stake)
    {rounds : ℕ} (hrounds : rounds ≤ eligible.length) : ∃ selected others,
      selectRounds rounds [] (scoredValidators sha256 toXdr randomness eligible stakes) =
        .ok selected ∧
      Selected sha256 toXdr randomness eligible stakes rounds selected others := by
  rw [scoredValidators_eq hdistinct]
  let score := scoreOf sha256 toXdr randomness eligible stakes
  have habove : ∀ entry ∈ eligible.map fun v => (v, score v), -1 < entry.2 := by
    intro entry hentry
    obtain ⟨v, -, rfl⟩ := List.mem_map.mp hentry
    have hscore : 0 ≤ score v := weightedScore_nonneg (stakeOf_nonneg hnonneg v)
    omega
  have hsorted := map_sorted hdistinct score
  have hlong : rounds ≤ (eligible.map fun v => (v, score v)).length := by rwa [List.length_map]
  obtain ⟨picked, rest, hselect, hsplit, hlength⟩ :=
    selectRounds_ok (split_nil hsorted) habove hlong
  have hform : ∀ entry ∈ picked ++ rest, entry.2 = score entry.1 := by
    intro entry hentry
    obtain ⟨v, -, rfl⟩ := List.mem_map.mp (hsplit.perm.mem_iff.mp hentry)
    rfl
  have hpicked : ∀ v, v ∈ picked.map Prod.fst ↔ (v, score v) ∈ picked := by
    intro v
    rw [List.mem_map]
    constructor
    · rintro ⟨entry, hentry, rfl⟩
      rw [← hform entry (List.mem_append_left rest hentry)]
      exact hentry
    · intro hentry
      exact ⟨_, hentry, rfl⟩
  refine ⟨picked.map Prod.fst, rest.map Prod.fst, hselect, ?_, ?_, ?_, ?_⟩
  · have hperm := hsplit.perm.map Prod.fst
    rwa [List.map_append, List.map_map, show (Prod.fst ∘ fun v => (v, score v)) = id from rfl,
      List.map_id] at hperm
  · rw [List.length_map, hlength, List.length_nil, Nat.zero_add]
  · intro v hv w hw
    obtain ⟨entry, hentry, rfl⟩ := List.mem_map.mp hw
    have hahead := hsplit.ahead _ ((hpicked v).mp hv) entry hentry
    unfold Ahead at hahead
    rw [hform entry (List.mem_append_right picked hentry)] at hahead
    exact hahead
  · intro v hv
    have hmem := hsplit.mem_picked_iff (List.mem_map_of_mem (f := fun v => (v, score v)) hv)
    rw [List.countP_map, hlength, List.length_nil, Nat.zero_add] at hmem
    exact (hpicked v).trans hmem

/-- Where the stakes of some validators add up to nothing, none of them has any. -/
theorem sum_stakeOf_eq_zero_iff (hnonneg : ∀ stake ∈ stakes, 0 ≤ stake) (others : List Addr) :
    (others.map (stakeOf eligible stakes)).sum = 0 ↔
      ∀ v ∈ others, stakeOf eligible stakes v = 0 := by
  constructor
  · intro hzero v hv
    refine List.all_zero_of_le_zero_le_of_sum_eq_zero ?_ hzero (List.mem_map_of_mem hv)
    rintro stake hstake
    obtain ⟨w, -, rfl⟩ := List.mem_map.mp hstake
    exact stakeOf_nonneg hnonneg w
  · intro hzero
    apply List.sum_eq_zero
    rintro stake hstake
    obtain ⟨w, hw, rfl⟩ := List.mem_map.mp hstake
    exact hzero w hw

/-- All the stake is selected where every validator that has some is among the first. -/
theorem Selected.stake_iff {randomness : Hash} {selected others : List Addr}
    (hsel : Selected sha256 toXdr randomness eligible stakes
      (min maxValidators eligible.length) selected others)
    (hdistinct : eligible.Nodup) (hnonneg : ∀ stake ∈ stakes, 0 ≤ stake) :
    (stakes.take eligible.length).sum = (selected.map (stakeOf eligible stakes)).sum ↔
      ∀ v ∈ eligible, stakeOf eligible stakes v ≠ 0 → (eligible.countP fun w =>
        decide (Precedes sha256 toXdr randomness eligible stakes w v)) < maxValidators := by
  have hnodup := hsel.perm.nodup_iff.mpr hdistinct
  have htotal : (stakes.take eligible.length).sum = (selected.map (stakeOf eligible stakes)).sum +
      (others.map (stakeOf eligible stakes)).sum := by
    rw [← sum_stakeOf hdistinct, ← List.sum_append, ← List.map_append]
    exact (hsel.perm.map _).sum_eq.symm
  rw [htotal, eq_comm, left_eq_add, sum_stakeOf_eq_zero_iff hnonneg]
  constructor
  · intro hzero v hv hstake
    by_contra hbehind
    have hout : v ∉ selected := by
      rw [hsel.mem_iff v hv]
      omega
    exact hstake (hzero v ((List.mem_append.mp (hsel.perm.mem_iff.mpr hv)).resolve_left hout))
  · intro hahead v hv
    by_contra hstake
    have heligible := hsel.perm.mem_iff.mp (List.mem_append_right selected hv)
    have hself : (eligible.countP fun w => decide
        (Precedes sha256 toXdr randomness eligible stakes w v)) < eligible.length := by
      refine lt_of_le_of_ne List.countP_le_length fun heq => ?_
      exact Ahead.irrefl v (decide_eq_true_eq.mp (List.countP_eq_length.mp heq v heligible))
    have hin := (hsel.mem_iff v heligible).mpr (lt_min (hahead v heligible hstake) hself)
    exact (List.nodup_append.mp hnodup).2.2 v hin v hv rfl

omit [DecidableEq Addr] in
theorem selectValidatorsForEpoch_eq_ok {vrfOutput : VrfOutput} {epoch : ℕ}
    {selected : List Addr} {selection : ValidatorSelection Addr}
    (hnonneg : ∀ stake ∈ stakes, 0 ≤ stake) (hfour : 4 ≤ eligible.length)
    (hselect : selectRounds (min maxValidators eligible.length) []
      (scoredValidators sha256 toXdr vrfOutput.randomness eligible stakes) = .ok selected) :
    selectValidatorsForEpoch sha256 toXdr (.ok vrfOutput) epoch eligible stakes maxValidators =
        .ok selection ↔
      (stakes.take eligible.length).sum < 2 ^ 127 ∧
        selection = ⟨epoch, selected, computeQuorumThreshold selected.length, vrfOutput,
          (stakes.take eligible.length).sum⟩ := by
  simp only [selectValidatorsForEpoch, bind_eq_ok, require_eq_ok, pure_eq_ok,
    totalStake_eq_ok hnonneg, Except.ok.injEq]
  constructor
  · rintro ⟨-, -, -, -, output, rfl, found, hfound, total, ⟨rfl, hfits⟩, rfl⟩
    rw [hselect] at hfound
    obtain rfl := Except.ok.inj hfound
    exact ⟨hfits, rfl⟩
  · rintro ⟨hfits, rfl⟩
    exact ⟨(), by omega, (), hfour, vrfOutput, rfl, selected, hselect, _, ⟨rfl, hfits⟩, rfl⟩

theorem selectionSound_iff (vrfOutput : VrfOutput) (epoch : ℕ) (hdistinct : eligible.Nodup)
    (hfour : 4 ≤ eligible.length) (hnonneg : ∀ stake ∈ stakes, 0 ≤ stake) :
    (∃ selection, SelectionSound sha256 toXdr vrfOutput epoch eligible stakes maxValidators
      selection) ↔
    4 ≤ maxValidators ∧ (stakes.take eligible.length).sum < 2 ^ 127 ∧
      ∀ v ∈ eligible, stakeOf eligible stakes v ≠ 0 → (eligible.countP fun w =>
        decide (Precedes sha256 toXdr vrfOutput.randomness eligible stakes w v)) <
          maxValidators := by
  have hrounds : min maxValidators eligible.length ≤ eligible.length := min_le_right _ _
  obtain ⟨selected, others, hselect, hsel⟩ :=
    selectRounds_selected sha256 toXdr vrfOutput.randomness hdistinct hnonneg hrounds
  have hnodup := hsel.perm.nodup_iff.mpr hdistinct
  have hstake := hsel.stake_iff hdistinct hnonneg
  constructor
  · rintro ⟨selection, hsound⟩
    obtain ⟨hfits, rfl⟩ := (selectValidatorsForEpoch_eq_ok hnonneg hfour hselect).mp hsound.returned
    have henough := hsound.enough
    rw [hsel.length] at henough
    exact ⟨by omega, hfits, hstake.mp hsound.stake⟩
  · rintro ⟨hmax, hfits, hstakes⟩
    refine ⟨_, (selectValidatorsForEpoch_eq_ok hnonneg hfour hselect).mpr ⟨hfits, rfl⟩, ?_, ?_, ?_,
      ?_, hstake.mpr hstakes⟩
    · exact (List.nodup_append.mp hnodup).1
    · intro v hv
      exact hsel.perm.mem_iff.mp (List.mem_append_left others hv)
    · show selected.length = _
      rw [hsel.length]
      omega
    · intro v hv w hw hout
      have hrest := (List.mem_append.mp (hsel.perm.mem_iff.mpr hw)).resolve_left hout
      rcases hsel.precede v hv w hrest with hless | ⟨hequal, -⟩
      · exact hless.le
      · exact hequal.le

end Selection

section Example

/-- A polynomial in the bytes. -/
def byteDigest (data : List UInt8) : Hash :=
  BitVec.ofNat 256 (data.foldl (fun digest byte => digest * 65537 + byte.toNat + 1) 0)

def byteXdr (a : ℕ) : List UInt8 := [UInt8.ofNat a]

/-- An output of the random function. -/
def givenOutput : VrfOutput := ⟨12345, 0, 0, 0⟩

/-- Of five validators, the one without a stake is left out. -/
theorem selectionSound_fourStaked :
    ∃ selection, SelectionSound byteDigest byteXdr givenOutput 1 [1, 2, 3, 4, 5]
      [1000, 2000, 0, 1000, 3000] 4 selection :=
  (selectionSound_iff givenOutput 1 (by decide) (by decide) (by decide)).mpr
    ⟨by decide, by decide, by decide +kernel⟩

/-- Three validators are selected when three are asked for, and the stake of a fifth one is added
to that of four. As they stand, the calls panic before they get there. -/
theorem selection_short_or_overstated :
    (¬ ∃ selection, SelectionSound byteDigest byteXdr givenOutput 1 [1, 2, 3, 4, 5]
      [1000, 1000, 1000, 1000, 1000] 3 selection) ∧
    (¬ ∃ selection, SelectionSound byteDigest byteXdr givenOutput 1 [1, 2, 3, 4, 5]
      [1000, 1000, 1000, 1000, 1000] 4 selection) ∧
    ∀ now seed maxValidators, selectValidatorsForEpoch byteDigest byteXdr
      (evaluateVrf byteDigest now seed 1) 1 [1, 2, 3, 4, 5] [1000, 1000, 1000, 1000, 1000]
      maxValidators = .error seedOverrun := by
  refine ⟨?_, ?_, fun now seed maxValidators =>
    selectValidatorsForEpoch_panics byteDigest byteXdr now seed 1 _ maxValidators (by decide)⟩
  · rintro ⟨selection, hsound⟩
    have hthree : (selectValidatorsForEpoch byteDigest byteXdr (.ok givenOutput) 1 [1, 2, 3, 4, 5]
        [1000, 1000, 1000, 1000, 1000] 3).map (fun selection => selection.validators.length) =
          .ok 3 := by
      decide +kernel
    rw [hsound.returned] at hthree
    have hlength : selection.validators.length = 3 := Except.ok.inj hthree
    have henough := hsound.enough
    rw [hlength] at henough
    exact absurd henough (by decide)
  · rintro ⟨selection, hsound⟩
    have hstakes : (selectValidatorsForEpoch byteDigest byteXdr (.ok givenOutput) 1 [1, 2, 3, 4, 5]
        [1000, 1000, 1000, 1000, 1000] 4).map (fun selection => (selection.totalStake,
          (selection.validators.map
            (stakeOf [1, 2, 3, 4, 5] [1000, 1000, 1000, 1000, 1000])).sum)) =
          .ok (5000, 4000) := by
      decide +kernel
    rw [hsound.returned] at hstakes
    obtain ⟨htotal, hselected⟩ := Prod.mk.inj (Except.ok.inj hstakes)
    have hstake := hsound.stake
    rw [htotal, hselected] at hstake
    exact absurd hstake (by decide)

end Example

end Consensus.Selection
