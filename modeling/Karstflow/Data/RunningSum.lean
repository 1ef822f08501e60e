import Karstflow.Data.Table

namespace Karstflow.Data.Table

/-! A sum over a table that is kept up to date while the table is written: each
write takes the weight of the old value out and puts the weight of the new
value in. -/

variable {G : Type} [DecidableEq κ] [AddCommGroup G] {weigh : κ → ν → G}

def replay (table : Table κ ν) (writes : List (κ × ν)) : Table κ ν :=
  writes.foldl (fun table write => table.insert write.1 write.2) table

/-- The value after the old weight under `key` is exchanged for a new one. -/
def exchange (weigh : κ → ν → G) (table : Table κ ν) (value : G) (write : κ × ν) : G :=
  value - (table.get write.1).elim 0 (weigh write.1) + weigh write.1 write.2

/-- The value that follows the writes, with the old values read as they are
overwritten. -/
def mirror (weigh : κ → ν → G) : List (κ × ν) → Table κ ν → G → G
  | [], _, value => value
  | write :: rest, table, value => mirror weigh rest (table.insert write.1 write.2) (exchange weigh table value write)

omit [AddCommGroup G] in
theorem replay_append (table : Table κ ν) : table.replay (writes ++ more) = (table.replay writes).replay more :=
  List.foldl_append

theorem mirror_append (table : Table κ ν) (value : G) : mirror weigh (writes ++ more) table value =
      mirror weigh more (table.replay writes) (mirror weigh writes table value) := by
  induction writes generalizing table value with
  | nil => rfl
  | cons write rest ih => exact ih (table.insert write.1 write.2) (exchange weigh table value write)

theorem exchange_sum : exchange weigh table (table.sum weigh) write = (table.insert write.1 write.2).sum weigh := by
  rw [exchange, sum_insert, sum_eq_erase table write.1, add_sub_cancel_left, add_comm]

theorem mirror_sum (table : Table κ ν) :
    mirror weigh writes table (table.sum weigh) = (table.replay writes).sum weigh := by
  induction writes generalizing table with
  | nil => rfl
  | cons write rest ih =>
    rw [mirror, exchange_sum]
    exact ih (table.insert write.1 write.2)

theorem mirror_of_distinct (distinct : writes.Pairwise fun left right => left.1 ≠ right.1) (table : Table κ ν)
    (value : G) : mirror weigh writes table value = writes.foldl (exchange weigh table) value := by
  induction writes generalizing table value with
  | nil => rfl
  | cons write rest ih =>
    obtain ⟨fresh, restDistinct⟩ := List.pairwise_cons.mp distinct
    rw [mirror, List.foldl_cons, ih restDistinct]
    apply List.foldl_ext
    intro sum other member
    rw [exchange, exchange, get_insert_ne (fresh other member).symm]

end Karstflow.Data.Table
