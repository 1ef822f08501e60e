import Karstflow.Alpenglow.Cert
import Karstflow.Data.Weight

namespace Karstflow.Alpenglow

variable {validators : List ValidatorInfo} {hash : Option BlockHash}

open Data List

/-! # The stake and the signers of certificates -/

namespace EpochInfo

variable {info : EpochInfo} {id : Nat}

def stakeAt (info : EpochInfo) (id : Nat) : Nat := (info.validators[id]?.map ValidatorInfo.stake).getD 0

noncomputable def stakeOf (info : EpochInfo) (p : Nat → Prop) : Nat :=
  weigh info.stakeAt (.range info.validatorCnt) p

theorem id_of_getElem? {validator : ValidatorInfo} (found : info.validators[id]? = some validator) :
    validator.id = id := by
  have ids := congrArg (fun ids => ids[id]?) info.idIsIndex
  have below := List.getElem?_eq_some_iff.mp found |>.1
  simp only [getElem?_map, found, Option.map_some] at ids
  rw [getElem?_range below] at ids
  exact Option.some.inj ids

theorem validator_eq_ok {validator : ValidatorInfo} (ran : info.validator id = .ok validator) :
    id < info.validatorCnt ∧ validator.stake = info.stakeAt id := by
  rw [EpochInfo.validator] at ran
  split at ran
  · rename_i found
    cases ran
    exact ⟨List.getElem?_eq_some_iff.mp found |>.1, by rw [stakeAt, found]; rfl⟩
  · cases ran

theorem sum_filter_stake (info : EpochInfo) (keep : Nat → Bool) :
    ((info.validators.filter fun validator => keep validator.id).map ValidatorInfo.stake).sum =
      info.stakeOf fun id => keep id = true := by
  have filtered : ∀ validators : List ValidatorInfo,
      ((validators.filter fun validator => keep validator.id).map ValidatorInfo.stake).sum =
        (validators.map fun validator => if keep validator.id then validator.stake else 0).sum := by
    intro validators
    induction validators with
    | nil => rfl
    | cons first rest ih =>
      by_cases kept : keep first.id = true
      · simp [kept, ih]
      · simp [kept, ih]
  rw [filtered, sum_map_eq_range, stakeOf, weigh]
  apply Finset.sum_congr rfl
  intro id below
  have inside := mem_range.mp below
  have found := getElem?_eq_getElem inside
  rw [stakeAt, found, Option.map_some, Option.map_some, Option.getD_some, Option.getD_some, id_of_getElem? found]
  by_cases kept : keep id = true
  · rw [if_pos kept, if_pos kept]
  · rw [if_neg kept, if_neg kept]

theorem totalStake_eq (bounded : info.stakeOf (fun _ => True) ≤ u64Max) :
    info.totalStake = info.stakeOf fun _ => True := by
  have sum := info.sum_filter_stake fun _ => true
  simp only [filter_true] at sum
  have fold : ∀ (validators : List ValidatorInfo) (start : Nat),
      start + (validators.map ValidatorInfo.stake).sum ≤ u64Max →
        validators.foldl (fun total validator => satAdd total validator.stake) start =
          start + (validators.map ValidatorInfo.stake).sum := by
    intro validators
    induction validators with
    | nil => exact fun start _ => rfl
    | cons first rest ih =>
      intro start bounded
      rw [map_cons, sum_cons] at bounded ⊢
      rw [foldl_cons, satAdd_eq_add (by omega), ih _ (by omega)]
      omega
  rw [info.total, fold _ _ (by rw [sum]; simpa using bounded), sum, zero_add]

end EpochInfo

namespace Cert

variable {cert : Cert}

theorem sumU64_eq_ok (low : start ≤ u64Max) :
    validators.foldlM (fun sum validator => addU64 sum validator.stake) start = .ok stake ↔
      stake = start + (validators.map ValidatorInfo.stake).sum ∧ stake ≤ u64Max := by
  induction validators generalizing start with
  | nil =>
    constructor
    · intro ran
      cases ran
      exact ⟨rfl, low⟩
    · rintro ⟨rfl, _⟩
      rfl
  | cons first rest ih =>
    rw [foldlM_cons, bind_eq_ok, map_cons, sum_cons]
    constructor
    · rintro ⟨sum, added, ran⟩
      obtain ⟨rfl, bounded⟩ := addU64_eq_ok.mp added
      obtain ⟨rfl, within⟩ := (ih bounded).mp ran
      exact ⟨by omega, within⟩
    · rintro ⟨rfl, within⟩
      have bounded : start + first.stake ≤ u64Max := by omega
      exact ⟨_, addU64_eq_ok.mpr ⟨rfl, bounded⟩, (ih bounded).mpr ⟨by omega, within⟩⟩

theorem signedStake_eq_ok : cert.signedStake info = .ok stake ↔
      stake = info.stakeOf (fun id => cert.isSigner id = true) ∧ stake ≤ u64Max := by
  rw [signedStake, sumU64_eq_ok (Nat.zero_le _), zero_add, info.sum_filter_stake]

end Cert

namespace AggregateSignature

variable {signature : AggregateSignature} {signers : List Nat}

theorem isSigner_add {after : AggregateSignature} (ran : signature.add signer = .ok after)
    (fits : signature.nbits ≤ maxSigners) (validator : Nat) : after.nbits = signature.nbits ∧
      (after.isSigner validator = true ↔ validator = signer ∨ signature.isSigner validator = true) := by
  obtain ⟨_, inside, ran⟩ := bind_eq_ok.mp ran
  obtain ⟨_, _, done⟩ := bind_eq_ok.mp ran
  cases done
  have below := of_decide_eq_true (assert_eq_ok.mp inside)
  have bound : signer < 2048 := lt_of_lt_of_le below fits
  refine ⟨rfl, ?_⟩
  simp only [isSigner, BitVec.getLsbD_or, BitVec.getLsbD_twoPow, Bool.and_eq_true, Bool.or_eq_true, decide_eq_true_eq]
  constructor
  · rintro ⟨within, set | ⟨_, rfl⟩⟩
    · exact .inr ⟨within, set⟩
    · exact .inl rfl
  · rintro (rfl | ⟨within, set⟩)
    · exact ⟨below, .inr ⟨bound, rfl⟩⟩
    · exact ⟨within, .inl set⟩

theorem isSigner_foldlM {after : AggregateSignature} (ran : signers.foldlM add signature = .ok after)
    (fits : signature.nbits ≤ maxSigners) :
    after.isSigner validator = true ↔ validator ∈ signers ∨ signature.isSigner validator = true := by
  induction signers generalizing signature with
  | nil =>
    cases ran
    simp
  | cons first rest ih =>
    obtain ⟨middle, added, ran⟩ := bind_eq_ok.mp ran
    obtain ⟨same, signer⟩ := isSigner_add added fits validator
    rw [ih ran (same ▸ fits), signer, mem_cons]
    tauto

end AggregateSignature

theorem aggBuild_isSigner (ran : aggBuild signers nbits = .ok signature) (validator : Nat) :
    signature.isSigner validator = true ↔ validator ∈ signers := by
  obtain ⟨empty, started, ran⟩ := bind_eq_ok.mp ran
  obtain ⟨_, asserted, done⟩ := bind_eq_ok.mp started
  cases done
  rw [AggregateSignature.isSigner_foldlM ran (of_decide_eq_true (assert_eq_ok.mp asserted))]
  simp [AggregateSignature.isSigner]

theorem expectCert_eq_ok {result : Except Panic (Except CertError α)} {cert : α} :
    expectCert result = .ok cert ↔ result = .ok (.ok cert) := by
  rw [expectCert, bind_eq_ok]
  constructor
  · rintro ⟨inner, rfl, ran⟩
    cases inner with
    | error refused => cases ran
    | ok value =>
      cases ran
      rfl
  · rintro rfl
    exact ⟨_, rfl, rfl⟩

theorem accepted_bind {tried : Except Panic (Except CertError α)}
    {next : Except CertError α → Except Panic (Except CertError β)} (ran : tried >>= next = .ok (.ok result))
    (refuses : ∀ refused, next (.error refused) = .ok (.error refused)) :
    ∃ value, tried = .ok (.ok value) ∧ next (.ok value) = .ok (.ok result) := by
  obtain ⟨inner, answered, rest⟩ := bind_eq_ok.mp ran
  cases inner with
  | error refused => cases (refuses refused).symm.trans rest
  | ok value => exact ⟨value, answered, rest⟩

theorem tally_uniform (ran : tally validators slot hash votes start = .ok (.ok stake)) :
    ∀ vote ∈ votes, vote.slot = slot ∧ vote.blockHash = hash := by
  induction votes generalizing start with
  | nil => simp
  | cons first rest ih =>
    rw [tally] at ran
    split at ran
    · cases ran
    rename_i sameSlot
    split at ran
    · cases ran
    rename_i sameHash
    split at ran
    · cases ran
    · intro vote member
      obtain rfl | later := mem_cons.mp member
      · exact ⟨not_not.mp sameSlot, not_not.mp sameHash⟩
      · exact ih ran vote later

section Aggregate

variable {items right : List Item}

theorem aggregate_spec (ran : aggregate validators slot hash (items.map ballot) = .ok (.ok (signature, stake))) :
    (∀ vote ∈ items, (ballot vote).slot = slot ∧ (ballot vote).blockHash = hash) ∧
      ∀ validator, signature.isSigner validator = true ↔ ∃ vote ∈ items, (ballot vote).signer = validator := by
  obtain ⟨total, counted, rest⟩ := accepted_bind ran fun _ => rfl
  obtain ⟨built, aggregated, done⟩ := bind_eq_ok.mp rest
  cases done
  refine ⟨forall_mem_map.mp (tally_uniform counted), fun validator => ?_⟩
  rw [aggBuild_isSigner aggregated, map_map, mem_map]
  rfl

theorem aggregateHalf_isSigner (ran : aggregateHalf validators (items.map ballot) = .ok signature) (validator : Nat) :
    signature.any (·.isSigner validator) = true ↔ ∃ vote ∈ items, (ballot vote).signer = validator := by
  rw [aggregateHalf] at ran
  split at ran
  · rename_i empty
    cases ran
    rw [map_eq_nil_iff.mp (isEmpty_iff.mp empty)]
    simp
  · obtain ⟨built, aggregated, done⟩ := bind_eq_ok.mp ran
    cases done
    exact (aggBuild_isSigner aggregated validator).trans (by rw [map_map, mem_map]; rfl)

theorem aggregateMixed_spec (ran : aggregateMixed validators slot hash (left.map ballot) (right.map ballot) =
      .ok (.ok (leftSig, rightSig, stake))) :
    (∀ vote ∈ left ++ right, (ballot vote).slot = slot ∧ (ballot vote).blockHash = hash) ∧
      ∀ validator, (leftSig.any (·.isSigner validator) || rightSig.any (·.isSigner validator)) = true ↔
        ∃ vote ∈ left ++ right, (ballot vote).signer = validator := by
  obtain ⟨total, counted, rest⟩ := accepted_bind ran fun _ => rfl
  obtain ⟨both, countedRight, rest⟩ := accepted_bind rest fun _ => rfl
  obtain ⟨builtLeft, aggregatedLeft, rest⟩ := bind_eq_ok.mp rest
  obtain ⟨builtRight, aggregatedRight, done⟩ := bind_eq_ok.mp rest
  cases done
  constructor
  · intro vote member
    obtain first | second := mem_append.mp member
    · exact tally_uniform counted _ (mem_map_of_mem first)
    · exact tally_uniform countedRight _ (mem_map_of_mem second)
  · intro validator
    rw [Bool.or_eq_true, aggregateHalf_isSigner aggregatedLeft, aggregateHalf_isSigner aggregatedRight]
    simp only [mem_append, or_and_right, exists_or]

end Aggregate

section TryNew

variable {votes : List BlockVote}

theorem NotarCert.tryNew_spec (ran : tryNew votes validators = .ok (.ok cert)) :
    votes ≠ [] ∧ (∀ vote ∈ votes, vote.slot = cert.slot ∧ vote.blockHash = cert.blockHash) ∧
      ∀ validator, cert.aggSig.isSigner validator = true ↔ ∃ vote ∈ votes, vote.signer = validator := by
  cases votes with
  | nil => cases ran
  | cons first rest =>
    obtain ⟨result, aggregated, done⟩ := accepted_bind ran fun _ => rfl
    cases done
    obtain ⟨uniform, signers⟩ := aggregate_spec aggregated
    exact ⟨cons_ne_nil _ _, fun vote member => (uniform vote member).imp_right Option.some.inj, signers⟩

theorem FastFinalCert.tryNew_spec (ran : tryNew votes validators = .ok (.ok cert)) :
    votes ≠ [] ∧ (∀ vote ∈ votes, vote.slot = cert.slot ∧ vote.blockHash = cert.blockHash) ∧
      ∀ validator, cert.aggSig.isSigner validator = true ↔ ∃ vote ∈ votes, vote.signer = validator := by
  obtain ⟨notar, aggregated, done⟩ := accepted_bind ran fun _ => rfl
  cases done
  exact NotarCert.tryNew_spec aggregated

theorem FinalCert.tryNew_spec (ran : tryNew slotVotes validators = .ok (.ok cert)) :
    slotVotes ≠ [] ∧ (∀ vote ∈ slotVotes, vote.slot = cert.slot) ∧
      ∀ validator, cert.aggSig.isSigner validator = true ↔ ∃ vote ∈ slotVotes, vote.signer = validator := by
  cases slotVotes with
  | nil => cases ran
  | cons first rest =>
    obtain ⟨result, aggregated, done⟩ := accepted_bind ran fun _ => rfl
    cases done
    obtain ⟨uniform, signers⟩ := aggregate_spec aggregated
    exact ⟨cons_ne_nil _ _, fun vote member => (uniform vote member).1, signers⟩

theorem NotarFallbackCert.tryNew_spec
    (ran : tryNew votes fallbacks validators = .ok (.ok cert)) : votes ++ fallbacks ≠ [] ∧
      (∀ vote ∈ votes ++ fallbacks, vote.slot = cert.slot ∧ vote.blockHash = cert.blockHash) ∧
      ∀ validator, Cert.isSigner (.notarFallback cert) validator = true ↔
        ∃ vote ∈ votes ++ fallbacks, vote.signer = validator := by
  rw [tryNew] at ran
  split at ran
  · cases ran
  rename_i first rest shape
  obtain ⟨result, aggregated, done⟩ := accepted_bind ran fun _ => rfl
  cases done
  obtain ⟨uniform, signers⟩ := aggregateMixed_spec aggregated
  exact ⟨ne_of_eq_of_ne shape (cons_ne_nil _ _),
    fun vote member => (uniform vote member).imp_right Option.some.inj, signers⟩

theorem SkipCert.tryNew_spec (ran : tryNew slotVotes slotFallbacks validators = .ok (.ok cert)) :
    slotVotes ++ slotFallbacks ≠ [] ∧ (∀ vote ∈ slotVotes ++ slotFallbacks, vote.slot = cert.slot) ∧
      ∀ validator, Cert.isSigner (.skip cert) validator = true ↔
        ∃ vote ∈ slotVotes ++ slotFallbacks, vote.signer = validator := by
  rw [tryNew] at ran
  split at ran
  · cases ran
  rename_i first rest shape
  obtain ⟨result, aggregated, done⟩ := accepted_bind ran fun _ => rfl
  cases done
  obtain ⟨uniform, signers⟩ := aggregateMixed_spec aggregated
  exact ⟨ne_of_eq_of_ne shape (cons_ne_nil _ _), fun vote member => (uniform vote member).1, signers⟩

end TryNew

end Karstflow.Alpenglow
