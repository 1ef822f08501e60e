import Karstflow.Sbpf.Execution

namespace Karstflow.Sbpf

open Data Karstflow.Types

def nonceAccountSize : Nat := 80

def nonceVersionLegacy : Nat := 0

def nonceVersionCurrent : Nat := 1

def nonceStateUninitialized : Nat := 0

def nonceStateInitialized : Nat := 1

def durableNoncePrefix : List UInt8 := "DURABLE_NONCE".toList.map fun char => .ofNat char.toNat

inductive NonceVersionedState where
  | uninitialized (version : Nat)
  | initialized (version : Nat) (authority : Pubkey) (durableNonce : Hash) (lamportsPerSignature : Nat)
deriving DecidableEq

def deriveDurableNonce (host : Host) (blockhash : Hash) : Hash :=
  host.sha256 (durableNoncePrefix ++ blockhash.bytes)

namespace NonceVersionedState

def deserialize (data : List UInt8) : Except Failure NonceVersionedState := do
  require (8 ≤ data.length) "Nonce account data too short"
  let version := leValue (data.extract 0 4)
  require (version = nonceVersionLegacy ∨ version = nonceVersionCurrent)
    ("Unknown nonce version: " ++ toString version)
  let state := leValue (data.extract 4 8)
  if state = nonceStateUninitialized then return .uninitialized version
  else if state = nonceStateInitialized then do
    require (nonceAccountSize ≤ data.length) "Nonce account data too short for initialized state"
    let authority ← unwrapOctets 32 (data.extract 8 40)
    let durableNonce ← unwrapOctets 32 (data.extract 40 72)
    return .initialized version authority durableNonce (leValue (data.extract 72 80))
  else .error (.error ("Unknown nonce state discriminant: " ++ toString state))

def serialize : NonceVersionedState → List UInt8
  | .uninitialized version =>
    leBytes 4 version ++ (leBytes 4 nonceStateUninitialized ++ .replicate 72 0)
  | .initialized version authority durableNonce lamportsPerSignature =>
    leBytes 4 version ++ (leBytes 4 nonceStateInitialized ++
      (authority.bytes ++ (durableNonce.bytes ++ leBytes 8 lamportsPerSignature)))

def isInitialized : NonceVersionedState → Bool
  | .uninitialized _ => false
  | .initialized .. => true

@[simp] theorem length_serialize (state : NonceVersionedState) : state.serialize.length = nonceAccountSize := by
  cases state with
  | uninitialized version | initialized version authority durableNonce lamportsPerSignature =>
    simp [serialize, nonceAccountSize]

theorem deserialize_initialized
    (read : deserialize data = .ok (.initialized version authority durableNonce lamportsPerSignature)) :
    nonceAccountSize ≤ data.length ∧ leValue (data.extract 0 4) = version ∧
      leValue (data.extract 4 8) = nonceStateInitialized ∧ data.extract 8 40 = authority.bytes ∧
      data.extract 40 72 = durableNonce.bytes ∧ leValue (data.extract 72 80) = lamportsPerSignature := by
  simp only [deserialize, bind_eq_ok, required] at read
  obtain ⟨-, -, read⟩ := read
  split at read
  · simp [pure, Except.pure] at read
  split at read
  · rename_i initialized
    simp only [bind_eq_ok, required, unwrapOctets_eq_ok, pure_eq_ok, NonceVersionedState.initialized.injEq] at read
    obtain ⟨sized, storedAuthority, keyBytes, storedNonce, nonceBytes, versions, authorities, nonces, fees⟩ := read
    subst authorities nonces
    exact ⟨sized, versions, initialized, keyBytes.symm, nonceBytes.symm, fees⟩
  · cases read

theorem deserialize_uninitialized (read : deserialize data = .ok (.uninitialized version)) :
    leValue (data.extract 4 8) = nonceStateUninitialized := by
  simp only [deserialize, bind_eq_ok, required] at read
  obtain ⟨-, -, read⟩ := read
  split at read
  · assumption
  · split at read
    · simp only [bind_eq_ok, pure_eq_ok, reduceCtorEq, and_false, exists_false] at read
    · cases read

theorem state_of_serialize_initialized :
    leValue ((serialize (.initialized version authority durableNonce lamportsPerSignature)).extract 4 8) =
      nonceStateInitialized := by
  rw [serialize, extract_append_skip (by simp), length_leBytes, extract_append_front (by simp),
    leValue_leBytes]
  rfl

theorem state_of_serialize_uninitialized :
    leValue ((serialize (.uninitialized version)).extract 4 8) = nonceStateUninitialized := by
  rw [serialize, extract_append_skip (by simp), length_leBytes, extract_append_front (by simp),
    leValue_leBytes]
  rfl

theorem authority_of_serialize :
    (serialize (.initialized version authority durableNonce lamportsPerSignature)).extract 8 40 = authority.bytes := by
  rw [serialize, extract_append_skip (by simp), length_leBytes, extract_append_skip (by simp),
    length_leBytes, extract_append_front (by simp)]

theorem durableNonce_of_serialize :
    (serialize (.initialized version authority durableNonce lamportsPerSignature)).extract 40 72 =
      durableNonce.bytes := by
  rw [serialize, extract_append_skip (by simp), length_leBytes, extract_append_skip (by simp),
    length_leBytes, extract_append_skip (by simp), Octets.bytes_length, extract_append_front (by simp)]

section

variable (read : deserialize data = .ok (.initialized version authority durableNonce lamportsPerSignature))

include read

theorem serialize_of_deserialize (sized : data.length = nonceAccountSize) :
    serialize (.initialized version authority durableNonce lamportsPerSignature) = data := by
  obtain ⟨-, versions, state, keyBytes, nonceBytes, fees⟩ := deserialize_initialized read
  have width : ∀ start stop, stop ≤ 80 → (data.extract start stop).length = stop - start := by
    intro start stop within
    apply length_extract_of_le
    rw [sized]
    exact within
  have word : ∀ start stop value, stop ≤ 80 → leValue (data.extract start stop) = value →
      leBytes (stop - start) value = data.extract start stop := by
    intro start stop value within spelled
    rw [← spelled, ← width start stop within, leBytes_leValue]
  have versionBytes := word 0 4 version (by decide) versions
  have stateBytes := word 4 8 nonceStateInitialized (by decide) state
  have feeBytes := word 72 80 lamportsPerSignature (by decide) fees
  rw [serialize, versionBytes, stateBytes, ← keyBytes, ← nonceBytes, feeBytes,
    extract_append_extract _ (by decide) (by decide), extract_append_extract _ (by decide) (by decide),
    extract_append_extract _ (by decide) (by decide), extract_append_extract _ (by decide) (by decide)]
  exact extract_all sized

theorem serialize_ne_of_durableNonce
    (advanced : durableNonce ≠ next) : serialize (.initialized otherVersion otherAuthority next otherFee) ≠ data := by
  intro same
  obtain ⟨-, -, -, -, nonceBytes, -⟩ := deserialize_initialized read
  rw [← same, durableNonce_of_serialize] at nonceBytes
  exact advanced (Octets.ext_bytes nonceBytes).symm

theorem serialize_ne_of_authority
    (changed : authority ≠ next) : serialize (.initialized otherVersion next otherNonce otherFee) ≠ data := by
  intro same
  obtain ⟨-, -, -, keyBytes, -, -⟩ := deserialize_initialized read
  rw [← same, authority_of_serialize] at keyBytes
  exact changed (Octets.ext_bytes keyBytes).symm

end

end NonceVersionedState

end Karstflow.Sbpf
