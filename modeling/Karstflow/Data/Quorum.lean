import Karstflow.Data.Weight

namespace Karstflow.Data

/-! Weighted quorums with faulty members.

Of the members, those that are not correct hold less than a fifth of the
weight. A quorum is counted in fifths, and a faulty member is in every quorum.
-/

structure Committee (ι : Type) where
  members : Finset ι
  weight : ι → Nat
  correct : ι → Prop
  majority : 4 * weigh weight members (fun _ => True) < 5 * weigh weight members correct

namespace Committee

variable {committee : Committee ι}

/-- The correct members that satisfy `p` reach the given fifths of the weight,
together with the faulty members. -/
def Reaches (committee : Committee ι) (fifths : Nat) (p : ι → Prop) : Prop :=
  fifths * weigh committee.weight committee.members (fun _ => True) ≤
    5 * weigh committee.weight committee.members fun member => committee.correct member → p member

theorem Reaches.mono (reaches : committee.Reaches fifths p)
    (weaker : ∀ member ∈ committee.members, committee.correct member → p member → q member) :
    committee.Reaches fifths q := by
  refine le_trans reaches (Nat.mul_le_mul_left 5 (weigh_mono ?_))
  intro member inside holds correct
  exact weaker member inside correct (holds correct)

theorem Reaches.fewer (reaches : committee.Reaches fifths p) (fewer : others ≤ fifths) : committee.Reaches others p :=
  le_trans (Nat.mul_le_mul_right _ fewer) reaches

theorem total_eq : weigh committee.weight committee.members (fun _ => True) =
      weigh committee.weight committee.members committee.correct +
        weigh committee.weight committee.members (fun member => ¬ committee.correct member) := by
  have split := weigh_split committee.weight committee.members (fun _ => True) committee.correct
  simpa only [true_and] using split

theorem faulty_lt :
    5 * weigh committee.weight committee.members (fun member => ¬ committee.correct member) <
      weigh committee.weight committee.members (fun _ => True) := by
  have split := committee.total_eq
  have majority := committee.majority
  omega

theorem reaching_eq (committee : Committee ι) (p : ι → Prop) :
    weigh committee.weight committee.members (fun member => committee.correct member → p member) =
      weigh committee.weight committee.members (fun member => ¬ committee.correct member) +
        weigh committee.weight committee.members (fun member => committee.correct member ∧ p member) := by
  rw [← weigh_or fun member _ faulty both => faulty both.1]
  apply weigh_congr
  intro member _
  by_cases correct : committee.correct member <;> simp [correct]

theorem Reaches.exists_correct (reaches : committee.Reaches 1 p) :
    ∃ member ∈ committee.members, committee.correct member ∧ p member := by
  have faulty := committee.faulty_lt
  have parts := committee.reaching_eq p
  apply @exists_of_weigh_pos _ committee.weight
  rw [Reaches, parts] at reaches
  omega

theorem Reaches.overlap (first : committee.Reaches fifths p) (second : committee.Reaches others q)
    (enough : 6 ≤ fifths + others) : ∃ member ∈ committee.members, committee.correct member ∧ p member ∧ q member := by
  by_contra apart
  have disjoint : ∀ member ∈ committee.members, committee.correct member ∧ p member →
      ¬ (committee.correct member ∧ q member) := by
    intro member inside both other
    exact apart ⟨member, inside, both.1, both.2, other.2⟩
  have sum := @weigh_add_le _ committee.weight _ _ _ _ disjoint (fun _ _ both => both.1) (fun _ _ both => both.1)
  have split := committee.total_eq
  have faulty := committee.faulty_lt
  rw [Reaches, committee.reaching_eq p] at first
  rw [Reaches, committee.reaching_eq q] at second
  have total : 6 * weigh committee.weight committee.members (fun _ => True) ≤
      (fifths + others) * weigh committee.weight committee.members (fun _ => True) :=
    Nat.mul_le_mul_right _ enough
  rw [add_mul] at total
  omega

end Committee

end Karstflow.Data
