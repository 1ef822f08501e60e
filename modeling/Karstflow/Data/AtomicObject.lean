import Mathlib.Logic.Function.Basic

namespace Karstflow.Data.Atomic

/-! An object whose calls are atomic, as its users see it.

A call takes effect at one point between its beginning and its return. A call
that fails or is cut off by a crash may also take no effect at all.
-/

variable {σ ι : Type} [DecidableEq ι]

inductive Progress (σ : Type) where
  | pending (effect : σ → σ)
  | done

structure State (σ ι : Type) where
  contents : σ
  calls : ι → Option (Progress σ)

/-- What users see. An immediate call begins and returns at once. -/
inductive Label (σ ι : Type) where
  | immediate (effect : σ → σ)
  | began (call : ι) (effect : σ → σ)
  | returned (call : ι) (success : Bool)
  | crashed
  | observed (contents : σ)

namespace State

variable (state : State σ ι)

def idle (contents : σ) : State σ ι := { contents, calls := fun _ => none }

def begin (call : ι) (effect : σ → σ) : State σ ι :=
  { state with calls := Function.update state.calls call (some (.pending effect)) }

def commit (call : ι) (effect : σ → σ) : State σ ι :=
  { contents := effect state.contents, calls := Function.update state.calls call (some .done) }

def finish (call : ι) : State σ ι := { state with calls := Function.update state.calls call none }

end State

/-- From `state` on, users may see these labels. -/
inductive Admits : State σ ι → List (Label σ ι) → Prop where
  | nothing (state : State σ ι) : Admits state []
  | commit {state : State σ ι} {call : ι} {effect : σ → σ} {labels : List (Label σ ι)}
      (pending : state.calls call = some (.pending effect)) (rest : Admits (state.commit call effect) labels) :
      Admits state labels
  | immediate {state : State σ ι} {effect : σ → σ} {labels : List (Label σ ι)}
      (rest : Admits { state with contents := effect state.contents } labels) :
      Admits state (.immediate effect :: labels)
  | began {state : State σ ι} {call : ι} {effect : σ → σ} {labels : List (Label σ ι)}
      (fresh : state.calls call = none) (rest : Admits (state.begin call effect) labels) :
      Admits state (.began call effect :: labels)
  | succeeded {state : State σ ι} {call : ι} {labels : List (Label σ ι)}
      (done : state.calls call = some .done) (rest : Admits (state.finish call) labels) :
      Admits state (.returned call true :: labels)
  | failed {state : State σ ι} {call : ι} {progress : Progress σ} {labels : List (Label σ ι)}
      (running : state.calls call = some progress) (rest : Admits (state.finish call) labels) :
      Admits state (.returned call false :: labels)
  | crashed {state : State σ ι} {labels : List (Label σ ι)} (rest : Admits (.idle state.contents) labels) :
      Admits state (.crashed :: labels)
  | observed {state : State σ ι} {labels : List (Label σ ι)} (rest : Admits state labels) :
      Admits state (.observed state.contents :: labels)

end Karstflow.Data.Atomic
