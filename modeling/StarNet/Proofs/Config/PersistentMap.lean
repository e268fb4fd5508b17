import StarNet.Bench.Rack
import StarNet.Proofs.Config.Blocks

/-!
The store as a persistent map. Writes, reads and restarts do to the stored bytes what they would do
to a map from module ids to blocks that simply survives a restart.
-/
namespace StarNet

inductive StoreCommand (α : Type) where
  | write (id : UInt8) (data : List UInt8)
  | read (id : UInt8) (buffer : List UInt8)
  /-- A new store over the same bytes is laid out for these modules. -/
  | restart (modules : List α)

inductive StoreAnswer (α : Type) where
  | wrote (answer : Except StoreError Unit)
  | read (found : Bool) (buffer : List UInt8)
  | restarted (valid : Bool) (modules : List α)

variable {α : Type} [Module α]

def Module.sizes (modules : List α) : List (UInt8 × Nat) :=
  modules.map fun m => (Module.moduleId m, Module.blockSize m)

/-- A restart finds modules of these ids and sizes. -/
def StoreCommand.Keeps (blocks : List (UInt8 × Nat)) : StoreCommand α → Prop
  | .restart modules => Module.sizes modules = blocks
  | _ => True

instance (blocks : List (UInt8 × Nat)) (command : StoreCommand α) :
    Decidable (command.Keeps blocks) :=
  match command with
  | .restart modules => inferInstanceAs (Decidable (Module.sizes modules = blocks))
  | .write .. | .read .. => .isTrue trivial

def ConfigStore.perform {S : Type} [Storage S] : StoreCommand α → StoreM S (StoreAnswer α)
  | .write id data => do return .wrote (← write id data)
  | .read id buffer => do
    let (found, buffer) ← read id buffer
    return .read found buffer
  | .restart modules => do
    modify fun s => { storage := s.storage }
    let (valid, modules) ← init modules
    return .restarted valid modules

namespace BlockMap

abbrev MapM := StateT BlockMap (Except Fault)

/-- Replaces the front of the block of a module that has one, unless there is too much data. -/
def write (id : UInt8) (data : List UInt8) : MapM (Except StoreError Unit) := do
  match (← get) id with
  | none => return .error (.unknownModule id)
  | some block =>
    if block.length < data.length then return .error (.tooLarge id)
    else
      modify fun map => Function.update map id (some (data ++ block.drop data.length))
      return .ok ()

/-- Copies a block to the front of a buffer that it fits in. -/
def read (id : UInt8) (buffer : List UInt8) : MapM (Bool × List UInt8) := do
  match (← get) id with
  | none => return (false, buffer)
  | some block =>
    if buffer.length < block.length then return (false, buffer)
    else return (true, block ++ buffer.drop block.length)

def persist {α : Type} : Persist α → MapM α
  | .done a => return a
  | .fail fault => throw fault
  | .write id data next => do persist (next (← write id data))

def configure (module : α) : MapM α := do
  persist (Module.configure module ((← get) (Module.moduleId module)))

def perform : StoreCommand α → MapM (StoreAnswer α)
  | .write id data => do return .wrote (← write id data)
  | .read id buffer => do
    let (found, buffer) ← read id buffer
    return .read found buffer
  | .restart modules => do return .restarted true (← modules.mapM configure)

end BlockMap

namespace ConfigStore

open BlockMap (MapM)

variable {S : Type} {β γ : Type}

/-- As long as `R` ties the store to the map, the program of the store does what the program of the
map does, and the two stay tied. -/
def Mirrors (R : BlockMap → ConfigStore S → Prop) (m : StoreM S β) (f : MapM β) : Prop :=
  ∀ map s, R map s → match f.run map with
    | .ok (b, map') => ∃ s', m.run s = .ok (b, s') ∧ R map' s'
    | .error fault => m.run s = .error fault

section

variable {R : BlockMap → ConfigStore S → Prop} {m : StoreM S β} {f : MapM β}

theorem Mirrors.ok {map map' : BlockMap} {s : ConfigStore S} {b : β} (h : Mirrors R m f)
    (hR : R map s) (hf : f.run map = .ok (b, map')) : ∃ s', m.run s = .ok (b, s') ∧ R map' s' := by
  have hrun := h map s hR
  rwa [hf] at hrun

theorem Mirrors.error {map : BlockMap} {s : ConfigStore S} {fault : Fault} (h : Mirrors R m f)
    (hR : R map s) (hf : f.run map = .error fault) : m.run s = .error fault := by
  have hrun := h map s hR
  rwa [hf] at hrun

theorem Mirrors.pure (b : β) : Mirrors R (pure b) (pure b) := fun _ s h => ⟨s, rfl, h⟩

theorem Mirrors.throw (fault : Fault) : Mirrors R (throw fault : StoreM S β) (throw fault) :=
  fun _ _ _ => rfl

theorem Mirrors.of_run (h : ∀ map s, R map s → ∃ b map' s', f.run map = .ok (b, map') ∧
    m.run s = .ok (b, s') ∧ R map' s') : Mirrors R m f := by
  intro map s hR
  obtain ⟨b, map', s', hf, hm, hR'⟩ := h map s hR
  rw [hf]
  exact ⟨s', hm, hR'⟩

theorem Mirrors.bind {n : β → StoreM S γ} {g : β → MapM γ} (h : Mirrors R m f)
    (hn : ∀ b, Mirrors R (n b) (g b)) : Mirrors R (m >>= n) (f >>= g) := by
  intro map s hR
  have hstep := h map s hR
  rw [StateT.run_bind, StateT.run_bind]
  cases hf : f.run map with
  | error fault =>
    rw [hf] at hstep
    rw [hstep]
    rfl
  | ok r =>
    rw [hf] at hstep
    obtain ⟨s', hm, hR'⟩ := hstep
    rw [hm]
    exact hn r.1 r.2 s' hR'

theorem Mirrors.mapM {τ : Type} {n : τ → StoreM S γ} {g : τ → MapM γ} {ts : List τ}
    (h : ∀ t ∈ ts, Mirrors R (n t) (g t)) : Mirrors R (ts.mapM n) (ts.mapM g) := by
  induction ts with
  | nil => exact .pure []
  | cons t ts ih =>
    rw [List.mapM_cons, List.mapM_cons]
    exact (h t List.mem_cons_self).bind fun _ =>
      (ih fun t ht => h t (List.mem_cons_of_mem _ ht)).bind fun _ => .pure _

end

variable [Storage S] [Bytewise S] {front back : List UInt8} {plan : Plan}
  {blocks : List (UInt8 × Nat)}

/-- The store holds this map, with the checksum of its blocks. -/
def Stores (front back : List UInt8) (plan : Plan) (map : BlockMap) (s : ConfigStore S) : Prop :=
  Holds front back plan map (checksum (map.joined plan)) s

theorem write_mirrors (id : UInt8) (data : List UInt8) :
    Mirrors (Stores (S := S) front back plan) (write id data) (BlockMap.write id data) := by
  refine .of_run fun map s h => ?_
  cases hblock : map id with
  | none =>
    refine ⟨_, map, s, ?_, write_of_slot_none (h.slot_none hblock), h⟩
    simp only [BlockMap.write, StateT.run_bind, StateT.run_get, pure_bind, hblock]
    rfl
  | some block =>
    by_cases hfit : data.length ≤ block.length
    · obtain ⟨s', hrun, hholds⟩ := h.write_done hblock hfit rfl
      refine ⟨_, _, s', ?_, hrun, hholds⟩
      simp only [BlockMap.write, StateT.run_bind, StateT.run_get, pure_bind, hblock,
        if_neg (Nat.not_lt.2 hfit)]
      rfl
    · refine ⟨_, map, s, ?_, h.write_tooLarge hblock (Nat.not_le.1 hfit), h⟩
      simp only [BlockMap.write, StateT.run_bind, StateT.run_get, pure_bind, hblock,
        if_pos (Nat.not_le.1 hfit)]
      rfl

theorem read_mirrors (id : UInt8) (buffer : List UInt8) :
    Mirrors (Stores (S := S) front back plan) (read id buffer) (BlockMap.read id buffer) := by
  refine .of_run fun map s h => ?_
  obtain ⟨s', hrun, hslots, hbytes⟩ := h.read id buffer
  rw [decide_eq_true rfl] at hrun
  refine ⟨readAnswer map true id buffer, map, s', ?_, hrun, h.congr hslots hbytes⟩
  simp only [BlockMap.read, StateT.run_bind, StateT.run_get, pure_bind, readAnswer]
  cases map id with
  | none => rfl
  | some block =>
    by_cases hfit : block.length ≤ buffer.length
    · simp only [if_neg (Nat.not_lt.2 hfit), if_pos (And.intro hfit trivial)]
      rfl
    · simp only [if_pos (Nat.not_le.1 hfit), if_neg fun h => hfit (And.left h)]
      rfl

theorem persist_mirrors {β : Type} (p : Persist β) :
    Mirrors (Stores (S := S) front back plan) (persist p) (BlockMap.persist p) := by
  induction p with
  | done b => exact .pure b
  | fail fault => exact .throw fault
  | write id data next ih => exact (write_mirrors id data).bind ih

theorem configure_mirrors (module : α) :
    Mirrors (Stores (S := S) front back plan) (configure true module)
      (BlockMap.configure module) := by
  intro map s h
  have hmap : (BlockMap.configure module).run map =
      (BlockMap.persist (Module.configure module (map (Module.moduleId module)))).run map := rfl
  rw [hmap]
  cases hblock : map (Module.moduleId module) with
  | none =>
    rw [configure_none (.inl (h.slot_none hblock))]
    exact persist_mirrors _ map s h
  | some block =>
    obtain ⟨s', hslots, hbytes, hrun⟩ := h.configure_some hblock
    rw [hrun]
    exact persist_mirrors _ map s' (h.congr hslots hbytes)

def laidOutFor (s : ConfigStore S) (modules : List α) : ConfigStore S :=
  { storage := s.storage
    slots := Layout.slots (Storage.capacity s.storage) (Module.sizes modules) }

omit [Bytewise S] in
theorem init_run (modules : List α) (s : ConfigStore S) : (init modules).run s =
    (do
      let valid ← intact
      return (valid, ← modules.mapM (configure valid))).run (s.laidOutFor modules) := rfl

omit [Bytewise S] in
theorem run_restart_bind {modules : List α} {valid : Bool} {s s' : ConfigStore S}
    {f : Bool × List α → StoreM S β}
    (hintact : intact.run (s.laidOutFor modules) = .ok (valid, s')) :
    ((modify fun s : ConfigStore S => { storage := s.storage }) >>= fun _ =>
      init modules >>= f).run s =
        (modules.mapM (configure valid) >>= fun modules' => f (valid, modules')).run s' := by
  rw [run_bind (a := ⟨⟩) rfl, init]
  simp only [bind_assoc, pure_bind]
  rw [run_bind (a := ⟨⟩) rfl]
  exact run_bind hintact

/-- Blocks of these modules, stored between bytes of these lengths, are laid out by this plan. -/
def LaysOut (front back : List UInt8) (blocks : List (UInt8 × Nat)) (plan : Plan) : Prop :=
  Layout.slots (front.length + (Layout.total plan + (Layout.checksumSize + back.length))) blocks =
    Layout.place Layout.base plan

theorem Holds.laidOutFor {map : BlockMap} {sum : Checksum} {s : ConfigStore S} {modules : List α}
    (h : Holds front back plan map sum s)
    (laysOut : LaysOut front back (Module.sizes modules) plan) :
    Holds front back plan map sum (s.laidOutFor modules) := by
  refine h.congr ?_ rfl
  rw [ConfigStore.laidOutFor, Bytewise.capacity_eq,
    show Bytewise.bytes s.storage = s.bytes from rfl, h.length_bytes, h.slots]
  exact laysOut

theorem Stores.laidOutFor {map : BlockMap} {s : ConfigStore S} {modules : List α}
    (h : Stores front back plan map s)
    (laysOut : LaysOut front back (Module.sizes modules) plan) :
    Stores front back plan map (s.laidOutFor modules) := Holds.laidOutFor h laysOut

theorem restart_mirrors {modules : List α} (hsame : Module.sizes modules = blocks)
    (laidOut : Layout.slots
      (front.length + (Layout.total plan + (Layout.checksumSize + back.length))) blocks =
        Layout.place Layout.base plan) :
    Mirrors (Stores (S := S) front back plan) (perform (.restart modules))
      (BlockMap.perform (.restart modules)) := by
  intro map s h
  have hlaid : Stores front back plan map (s.laidOutFor modules) := h.laidOutFor (hsame ▸ laidOut)
  obtain ⟨s', hintact, hslots', hbytes'⟩ := hlaid.intact
  rw [decide_eq_true rfl] at hintact
  rw [perform, run_restart_bind hintact]
  exact (Mirrors.mapM fun module _ => configure_mirrors module).bind
    (fun _ => .pure _) map s' (hlaid.congr hslots' hbytes')

theorem perform_mirrors {command : StoreCommand α} (hkeeps : command.Keeps blocks)
    (laidOut : Layout.slots
      (front.length + (Layout.total plan + (Layout.checksumSize + back.length))) blocks =
        Layout.place Layout.base plan) :
    Mirrors (Stores (S := S) front back plan) (perform command) (BlockMap.perform command) := by
  cases command with
  | write id data => exact (write_mirrors id data).bind fun _ => .pure _
  | read id buffer => exact (read_mirrors id buffer).bind fun _ => .pure _
  | restart modules => exact restart_mirrors hkeeps laidOut

/-- Let the blocks of a laid-out store be intact. Whatever is written and read, and however often a
new store over the same bytes finds modules of the same ids and sizes, the answers are those of a
map from ids to blocks, the map that lies in the slots to begin with. The map always tells all
bytes of the storage: those in front of the first block and behind the checksum never change. -/
theorem store_behaves_as_map {s : ConfigStore S} {commands : List (StoreCommand α)}
    (distinct : (blocks.map Prod.fst).Nodup)
    (laidOut : s.slots = Layout.slots (Storage.capacity s.storage) blocks) (slotted : s.slots ≠ [])
    (valid : ∃ s', intact.run s = .ok (true, s')) (keeps : ∀ c ∈ commands, c.Keeps blocks) :
    (∀ answers map, (commands.mapM BlockMap.perform).run s.blockMap = .ok (answers, map) →
      ∃ s', (commands.mapM perform).run s = .ok (answers, s') ∧
        Stores (s.bytes.take Layout.base) (s.bytes.drop (s.blocksEnd + Layout.checksumSize))
          (s.slots.map Slot.entry) map s') ∧
    ∀ fault, (commands.mapM BlockMap.perform).run s.blockMap = .error fault →
      (commands.mapM perform).run s = .error fault := by
  obtain ⟨sum, hholds⟩ := holds_of_laidOut distinct laidOut slotted
  obtain ⟨s₁, hrun₁⟩ := valid
  obtain ⟨s₂, hrun₂, -⟩ := hholds.intact
  obtain ⟨hsum, -⟩ := Prod.mk.inj (Except.ok.inj (hrun₁.symm.trans hrun₂))
  obtain rfl := of_decide_eq_true hsum.symm
  have hmirrors : Mirrors (Stores (s.bytes.take Layout.base)
      (s.bytes.drop (s.blocksEnd + Layout.checksumSize)) (s.slots.map Slot.entry))
      (commands.mapM (perform (S := S))) (commands.mapM BlockMap.perform) := by
    refine .mapM fun c hc => perform_mirrors (keeps c hc) ?_
    rw [← hholds.length_bytes, ← hholds.slots, laidOut, Bytewise.capacity_eq]
    rfl
  exact ⟨fun _ _ hf => hmirrors.ok hholds hf, fun _ hf => hmirrors.error hholds hf⟩

def twoBlocks : ConfigStore Memory where
  storage := ⟨List.replicate 32 0xFF ++ [7, 1, 2, 64, 80, 0xFF]⟩
  slots := [⟨5, 32, 1⟩, ⟨9, 33, 2⟩]

/-- After a write and a restart the modules are handed the blocks that are due to them. -/
theorem two_blocks_behave_as_map : ∃ s', ([.write 9 [8], .write 5 [0, 0],
      .restart [{ id := 5, size := 1 }, { id := 9, size := 2 }], .read 9 [0, 0, 3]].mapM
        (perform (α := Bench.Probe))).run twoBlocks =
      .ok ([.wrote (.ok ()), .wrote (.error (.tooLarge 5)),
        .restarted true [{ id := 5, size := 1, log := [.configured (some [7]) []] },
          { id := 9, size := 2, log := [.configured (some [8, 2]) []] }],
        .read true [8, 2, 3]], s') ∧
    s'.bytes = List.replicate 32 0xFF ++ [7, 8, 2, 70, 0, 0xFF] := by
  obtain ⟨s₁, hintact, -⟩ := intact_yields twoBlocks
  have hvalid : (twoBlocks.fits && checksum (slice twoBlocks.bytes Layout.base
      (Layout.blocksLength twoBlocks.slots + Layout.checksumSize)) == 0) = true := by decide +kernel
  rw [hvalid] at hintact
  obtain ⟨s', hrun, hstores⟩ := (@store_behaves_as_map Bench.Probe _ Memory _ _ [(5, 1), (9, 2)]
    twoBlocks [.write 9 [8], .write 5 [0, 0],
      .restart [{ id := 5, size := 1 }, { id := 9, size := 2 }], .read 9 [0, 0, 3]]
    (by decide) (by decide +kernel) (by decide) ⟨s₁, hintact⟩ (by decide)).1
    _ _ rfl
  exact ⟨s', hrun, hstores.bytes.trans (by decide +kernel)⟩

end ConfigStore
end StarNet
