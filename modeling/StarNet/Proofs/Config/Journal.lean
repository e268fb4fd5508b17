import StarNet.Proofs.Config.PersistentMap

/-!
What can be seen of a store and its modules over writes and restarts with ever other modules, and
the journal of what was written. The stored bytes say nothing of the layout they were written
under, so a restart may take another layout for it.
-/
namespace StarNet

instance decidableEqExcept {ε α : Type} [DecidableEq ε] [DecidableEq α] :
    DecidableEq (Except ε α)
  | .ok a, .ok b => decidable_of_iff (a = b) ⟨congrArg _, Except.ok.inj⟩
  | .error e, .error f => decidable_of_iff (e = f) ⟨congrArg _, Except.error.inj⟩
  | .ok _, .error _ | .error _, .ok _ => .isFalse nofun

inductive StoreEvent where
  | laidOut (plan : Plan) (valid : Bool)
  | handed (id : UInt8) (block? : Option (List UInt8))
  | wrote (id : UInt8) (data : List UInt8) (answer : Except StoreError Unit)
  deriving DecidableEq

structure Observed (α : Type) where
  module : α
  log : List StoreEvent := []

abbrev Observed.fresh {α : Type} (module : α) : Observed α := { module }

def Persist.observed {α : Type} (log : List StoreEvent) : Persist α → Persist (Observed α)
  | .done a => .done ⟨a, log⟩
  | .fail fault => .fail fault
  | .write id data next =>
    .write id data fun answer => (next answer).observed (log ++ [.wrote id data answer])

variable {α : Type} [Module α]

instance : Module (Observed α) where
  moduleId m := Module.moduleId m.module
  blockSize m := Module.blockSize m.module
  configure m block := (Module.configure m.module block).observed
    (m.log ++ [.handed (Module.moduleId m.module) block])
  receive m data := { m with module := Module.receive m.module data }

/-- Handed no block the module writes one of its full size and nothing else, and handed a block it
writes nothing. -/
def Module.KeepsBlock (module : α) : Prop :=
  (∃ (data : List UInt8) (next : Except StoreError Unit → α),
    data.length = Module.blockSize module ∧
    Module.configure module none =
      .write (Module.moduleId module) data fun answer => .done (next answer)) ∧
  ∀ block, ∃ module', Module.configure module (some block) = .done module'

/-- A restart finds modules of different ids that keep their blocks. -/
def StoreCommand.Orderly : StoreCommand α → Prop
  | .restart modules =>
    (modules.map Module.moduleId).Nodup ∧ ∀ module ∈ modules, Module.KeepsBlock module
  | _ => True

def ConfigStore.observe {S : Type} [Storage S] : StoreCommand α → StoreM S (List StoreEvent)
  | .write id data => do return [.wrote id data (← write id data)]
  | .read id buffer => do
    let _ ← read id buffer
    return []
  | .restart modules => do
    modify fun s => { storage := s.storage }
    let (valid, modules) ← init (modules.map Observed.fresh)
    return .laidOut ((← get).slots.map Slot.entry) valid :: modules.flatMap (·.log)

structure Journal where
  /-- The layout at present. -/
  plan : Plan := []
  /-- The layout under which the last successful write was made. -/
  written : Plan := []
  /-- The blocks as the last successful writes for their modules left them. -/
  left : BlockMap := fun _ => none

namespace Journal

/-- A successful write leaves its data and, behind it, what there was of the block. -/
def note (j : Journal) : StoreEvent → Journal
  | .laidOut plan _ => { j with plan }
  | .handed .. => j
  | .wrote id data (.ok _) =>
    { j with
      written := j.plan
      left := Function.update j.left id (some
        ((data ++ ((j.left id).getD []).drop data.length).take ((j.plan.lookup id).getD 0))) }
  | .wrote _ _ (.error _) => j

def after (j : Journal) (events : List StoreEvent) : Journal := events.foldl note j

theorem after_append (j : Journal) (es es' : List StoreEvent) :
    j.after (es ++ es') = (j.after es).after es' := List.foldl_append

end Journal

/-- The journal of what could be seen since the storage was erased. -/
def journal (events : List StoreEvent) : Journal := ({} : Journal).after events

/-- If a restart finds the blocks intact, the layout is the one last written. -/
def StoreEvent.Detected (j : Journal) : StoreEvent → Prop
  | .laidOut plan true => plan = [] ∨ j.written = [] ∨ plan = j.written
  | _ => True

instance (j : Journal) (e : StoreEvent) : Decidable (e.Detected j) :=
  match e with
  | .laidOut plan true =>
    inferInstanceAs (Decidable (plan = [] ∨ j.written = [] ∨ plan = j.written))
  | .laidOut _ false | .handed .. | .wrote .. => .isTrue trivial

/-- From this journal on no restart takes another layout for the one last written. -/
def Journal.Detects (j : Journal) : List StoreEvent → Prop
  | [] => True
  | e :: es => e.Detected j ∧ (j.note e).Detects es

def Journal.decideDetects (j : Journal) : (es : List StoreEvent) → Decidable (j.Detects es)
  | [] => .isTrue trivial
  | e :: es =>
    have := (j.note e).decideDetects es
    inferInstanceAs (Decidable (e.Detected j ∧ (j.note e).Detects es))

instance (j : Journal) (es : List StoreEvent) : Decidable (j.Detects es) := j.decideDetects es

theorem Journal.detects_append {j : Journal} {es es' : List StoreEvent} :
    j.Detects (es ++ es') ↔ j.Detects es ∧ (j.after es).Detects es' := by
  induction es generalizing j with
  | nil => exact ⟨fun h => ⟨trivial, h⟩, And.right⟩
  | cons e es ih =>
    rw [List.cons_append, Detects, Detects, ih, and_assoc]
    rfl

/-- No restart has taken another layout for the one last written. -/
def Detects (events : List StoreEvent) : Prop := ({} : Journal).Detects events

instance (events : List StoreEvent) : Decidable (Detects events) :=
  inferInstanceAs (Decidable (({} : Journal).Detects events))

theorem Detects.of_append {es es' : List StoreEvent} (h : Detects (es ++ es')) : Detects es :=
  (Journal.detects_append.1 h).1

theorem Detects.next {events es : List StoreEvent} {e : StoreEvent}
    (h : Detects (events ++ e :: es)) : e.Detected (journal events) :=
  (Journal.detects_append.1 h).2.1

/-- An event that writes nothing, and in which a module is handed nothing but its block. -/
def StoreEvent.Idle (map : BlockMap) : StoreEvent → Prop
  | .handed id (some block) => map id = some block
  | .handed _ none => True
  | .wrote _ _ (.error _) => True
  | _ => False

theorem Journal.after_idle (j : Journal) (map : BlockMap) {events : List StoreEvent}
    (h : ∀ e ∈ events, e.Idle map) : j.after events = j := by
  induction events with
  | nil => rfl
  | cons e events ih =>
    have he : j.note e = j := by
      have hidle := h e List.mem_cons_self
      cases e with
      | laidOut plan valid => exact hidle.elim
      | handed id block? => rfl
      | wrote id data answer =>
        cases answer with
        | ok _ => exact hidle.elim
        | error _ => rfl
    rw [after, List.foldl_cons, he]
    exact ih fun e he => h e (List.mem_cons_of_mem _ he)

section Defaults

variable {j : Journal} {es : List StoreEvent} {id i : UInt8} {data : List UInt8} {plan : Plan}

def defaultEvents (id : UInt8) (data : List UInt8) (answer : Except StoreError Unit) :
    List StoreEvent := [.handed id none, .wrote id data answer]

theorem handed_mem_append {answer : Except StoreError Unit} {block? : Option (List UInt8)} :
    .handed i block? ∈ es ++ defaultEvents id data answer ↔
      .handed i block? ∈ es ∨ i = id ∧ block? = none := by
  simp [defaultEvents]

theorem idle_of_refused {map : BlockMap} {error : StoreError} {e : StoreEvent}
    (h : e ∈ defaultEvents id data (.error error)) : e.Idle map := by
  simp only [defaultEvents, List.mem_cons, List.not_mem_nil, or_false] at h
  rcases h with rfl | rfl <;> trivial

theorem Journal.after_refused (j : Journal) (es : List StoreEvent) (id : UInt8)
    (data : List UInt8) (error : StoreError) :
    j.after (es ++ defaultEvents id data (.error error)) = j.after es := by
  rw [after_append]
  exact after_idle _ (fun _ => none) fun e he => idle_of_refused he

theorem Journal.after_renewed (hplan : (j.after es).plan = plan)
    (hlookup : plan.lookup id = some data.length) :
    j.after (es ++ defaultEvents id data (.ok ())) =
      ⟨plan, plan, Function.update (j.after es).left id (some data)⟩ := by
  rw [after_append]
  simp only [defaultEvents, after, List.foldl_cons, List.foldl_nil, note]
  rw [← after, hplan, hlookup, Option.getD_some, List.take_left]

theorem Journal.after_write {block : List UInt8} (hplan : j.plan = plan)
    (hleft : j.left id = some block) (hlookup : plan.lookup id = some block.length)
    (hfit : data.length ≤ block.length) : j.after [.wrote id data (.ok ())] =
      ⟨plan, plan, Function.update j.left id (some (data ++ block.drop data.length))⟩ := by
  have hlength : (data ++ block.drop data.length).length = block.length := by
    rw [List.length_append, List.length_drop]
    omega
  simp only [after, List.foldl_cons, List.foldl_nil, note]
  rw [hplan, hleft, hlookup, Option.getD_some, Option.getD_some, ← hlength, List.take_length]

end Defaults

end StarNet
