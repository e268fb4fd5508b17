import StarNet.Bench.Rack
import StarNet.Node.Module
import StarNet.Proofs.Config.Bounds
import StarNet.Proofs.Config.Boot
import StarNet.Proofs.Node.Execution

/-!
The radio mode over boots. A node is configured from the store like any module, with one byte for
its block. Whatever the storage held, a boot sets up the radio once, in the mode stored or else in
the normal one, and leaves intact blocks that say which. Other modules that keep to their own
blocks do not come between, so each boot uses what the last one, or a write since, has stored.
-/
namespace StarNet

open Node

/-- The program of a module writes to the block of this id only. -/
def Persist.Confined {α : Type} (id : UInt8) : Persist α → Prop
  | .done _ | .fail _ => True
  | .write i _ next => i = id ∧ ∀ answer, (next answer).Confined id

def Module.Confined {α : Type} [Module α] (module : α) : Prop :=
  ∀ block?, (Module.configure module block?).Confined (Module.moduleId module)

theorem Persist.Confined.map {α β : Type} {id : UInt8} {p : Persist α} (h : p.Confined id)
    (f : α → β) : (p.map f).Confined id := by
  induction p with
  | done | fail => trivial
  | write i data next ih => exact ⟨h.1, fun answer => ih answer (h.2 answer)⟩

/-- The mode in which a boot sets up the radio: the one stored if the blocks were intact and the
byte is that of a mode, and the normal one otherwise. -/
def modeDue (valid : Bool) (b : UInt8) : RadioMode :=
  if valid then (RadioMode.ofByte? b).getD .normal else .normal

theorem modeDue_byte (mode : RadioMode) : modeDue true mode.byte = mode := by
  rw [modeDue, if_pos rfl, RadioMode.ofByte?_byte, Option.getD_some]

/-- What a write makes of the byte stored for the radio mode. -/
def modeWritten (b id : UInt8) : List UInt8 → UInt8
  | [b'] => if id = ModuleId.net then b' else b
  | _ => b

theorem modeWritten_of_ne {b id : UInt8} (h : id ≠ ModuleId.net) (data : List UInt8) :
    modeWritten b id data = b := by
  unfold modeWritten
  split
  · exact if_neg h
  · rfl

theorem modeWritten_of_long {b id : UInt8} {data : List UInt8} (h : 1 < data.length) :
    modeWritten b id data = b := by
  unfold modeWritten
  split
  · exact absurd h (Nat.lt_irrefl 1)
  · rfl

theorem modeWritten_net {b : UInt8} {data : List UInt8} (h : data.length ≤ 1) :
    data ++ [b].drop data.length = [modeWritten b ModuleId.net data] := by
  match data, h with
  | [], _ => rfl
  | [b'], _ => rw [modeWritten, if_pos rfl]; rfl

namespace Node

def Event.configuration? : Event → Option (Identity × RadioMode)
  | .configured identity mode => some (identity, mode)
  | _ => none

def configurations (log : List Event) : List (Identity × RadioMode) :=
  log.filterMap Event.configuration?

theorem configurations_concat {log : List Event} {e : Event} (h : e.configuration? = none) :
    configurations (log ++ [e]) = configurations log := by
  rw [configurations, List.filterMap_append, List.filterMap_cons_none h]
  exact List.append_nil _

variable {W : Type} [Medium W] {n n' : Node (Recorded W)}

theorem Noting.configures_nothing {code : UInt8} (h : Noting code n n') :
    configurations n'.world.log = configurations n.world.log := by
  cases h with
  | kept => exact configurations_concat rfl
  | held => exact (configurations_concat rfl).trans (configurations_concat rfl)
  | shipped w _ _ hw =>
    rw [Recorded.log_transmit hw, configurations_concat rfl]
    exact (configurations_concat rfl).trans (configurations_concat rfl)

theorem Remarks.configures_nothing (h : Remarks n n') :
    configurations n'.world.log = configurations n.world.log := by
  induction h with
  | refl => rfl
  | tail _ h ih =>
    obtain ⟨code, h⟩ := h
    exact h.configures_nothing.trans ih

theorem initRadio_configures {mode : RadioMode} {a : Unit} (enabled : n.enabled = true)
    (hrun : (initRadio mode).run n = .ok (a, n')) :
    configurations n'.world.log = configurations n.world.log ++ [(n.identity, mode)] := by
  have hnoted : Outcome (initRadio mode) n
      (fun _ m => Remarks { n with world := Medium.configure n.world n.identity mode } m)
      (MediumFails (Recorded W)) := by
    unfold initRadio
    rw [outcome_bind, outcome_get, if_pos enabled, outcome_bind, outcome_set]
    exact note_notes _ .mediumReady
  rw [(hnoted.of_run_eq hrun).configures_nothing]
  exact List.filterMap_append

/-- What a node does with the byte stored for it: it uses the mode due, which it either found there
or stores as the normal one. -/
theorem configure_byte (n : Node W) (valid : Bool) (b : UInt8) :
    (valid = true ∧ (modeDue valid b).byte = b ∧
      Node.configure n (if valid then some [b] else none) = n.bringUp (modeDue valid b)) ∨
    (modeDue valid b = .normal ∧
      Node.configure n (if valid then some [b] else none) =
        .write ModuleId.net [RadioMode.normal.byte] fun _ => n.bringUp .normal) := by
  cases valid with
  | false => exact .inr ⟨rfl, rfl⟩
  | true =>
    have hmode : storedMode? (some [b]) = RadioMode.ofByte? b := rfl
    rw [if_pos rfl, Node.configure, hmode, modeDue, if_pos rfl]
    cases hfound : RadioMode.ofByte? b with
    | some mode => exact .inl ⟨rfl, (RadioMode.ofByte?_eq_some.1 hfound).symm, rfl⟩
    | none => exact .inr ⟨rfl, rfl⟩

end Node

variable {α W : Type} [Module α] [Medium W]

def roster (before : List α) (n : Node (Recorded W)) (after : List α) :
    List (α ⊕ Node (Recorded W)) :=
  before.map .inl ++ .inr n :: after.map .inl

/-- A node with a working medium among modules that keep to their own blocks, all of these ids and
sizes. -/
structure Bootable (blocks : Plan) (before : List α) (n : Node (Recorded W)) (after : List α) :
    Prop where
  sizes : Module.sizes (roster before n after) = blocks
  confined : ∀ m ∈ before ++ after, Module.Confined m
  enabled : n.enabled = true

theorem Bootable.others {blocks : Plan} {before after : List α} {n : Node (Recorded W)}
    (h : Bootable blocks before n after) (distinct : (blocks.map Prod.fst).Nodup) :
    ∀ m ∈ before ++ after, Module.moduleId m ≠ ModuleId.net := by
  have hids : blocks.map Prod.fst =
      before.map Module.moduleId ++ ModuleId.net :: after.map Module.moduleId := by
    rw [← h.sizes, Module.sizes, roster]
    simp only [List.map_append, List.map_cons, List.map_map]
    rfl
  rw [hids, List.perm_middle.nodup_iff, List.nodup_cons, ← List.map_append] at distinct
  rintro m hm hid
  exact distinct.1 (hid ▸ List.mem_map_of_mem hm)

namespace StoreCommand

def Continues (blocks : Plan) : StoreCommand (α ⊕ Node (Recorded W)) → Prop
  | .restart modules => ∃ before n after, modules = roster before n after ∧
      Bootable blocks before n after
  | _ => True

/-- What a command makes of the byte stored for the radio mode. -/
def modeByte {α : Type} (b : UInt8) : StoreCommand α → UInt8
  | .write id data => modeWritten b id data
  | .read .. => b
  | .restart _ => (modeDue true b).byte

/-- A write that may change the mode stored. -/
def WritesMode {α : Type} : StoreCommand α → Prop
  | .write id _ => id = ModuleId.net
  | _ => False

theorem foldl_modeByte {α : Type} {history : List (StoreCommand α)} (mode : RadioMode)
    (spared : ∀ c ∈ history, ¬ c.WritesMode) :
    history.foldl modeByte mode.byte = mode.byte := by
  induction history with
  | nil => rfl
  | cons c history ih =>
    have hstep : modeByte mode.byte c = mode.byte := by
      cases c with
      | write id data => exact modeWritten_of_ne (spared _ List.mem_cons_self) data
      | read => rfl
      | restart => rw [modeByte, modeDue_byte]
    rw [List.foldl_cons, hstep]
    exact ih fun c hc => spared c (List.mem_cons_of_mem _ hc)

end StoreCommand

namespace ConfigStore

variable {S β γ : Type} {s s' : ConfigStore S}

theorem ok_of_bind {m : StoreM S β} {f : β → StoreM S γ} {c : γ}
    (h : (m >>= f).run s = .ok (c, s')) :
    ∃ b s₁, m.run s = .ok (b, s₁) ∧ (f b).run s₁ = .ok (c, s') := by
  rw [StateT.run_bind] at h
  cases hm : m.run s with
  | error fault =>
    rw [hm] at h
    cases h
  | ok r =>
    rw [hm] at h
    exact ⟨r.1, r.2, rfl, h⟩

theorem ok_of_any {m : StoreM S β} {test : β × ConfigStore S → Bool}
    (h : (m.run s).toOption.any test = true) :
    ∃ b s', m.run s = .ok (b, s') ∧ test (b, s') = true := by
  cases hrun : m.run s with
  | error fault => simp [hrun, Except.toOption] at h
  | ok r => exact ⟨r.1, r.2, rfl, by simpa [hrun, Except.toOption] using h⟩

variable [Storage S]

theorem persist_map (f : β → γ) (p : Persist β) :
    (persist (p.map f) : StoreM S γ) = do return f (← persist p) := by
  induction p with
  | done | fail => rfl
  | write id data next ih =>
    simp only [Persist.map, persist, bind_assoc]
    exact congrArg (write id data >>= ·) (funext fun answer => ih answer)

variable [Bytewise S] {front back : List UInt8} {plan : Plan} {map : BlockMap} {sum : Checksum}
  {b : UInt8} {right valid : Bool} {before after : List α} {n : Node (Recorded W)}

theorem Holds.configure_run {β : Type} [Module β] (h : Holds front back plan map sum s)
    (valid : Bool) (module : β) : ∃ s₁, s₁.slots = s.slots ∧ s₁.bytes = s.bytes ∧
      (configure valid module).run s = (persist (Module.configure module
        (if valid then map (Module.moduleId module) else none))).run s₁ := by
  cases hblock : map (Module.moduleId module) with
  | none =>
    refine ⟨s, rfl, rfl, ?_⟩
    rw [configure_none (.inl (h.slot_none hblock)), ite_self]
  | some block =>
    cases valid with
    | false => exact ⟨s, rfl, rfl, configure_none (.inr rfl)⟩
    | true => exact h.configure_some hblock

/-- The blocks of a plan, with this byte for the radio mode, under a right checksum if they have
passed for intact. -/
def ModeStored (front back : List UInt8) (plan : Plan) (b : UInt8) (right : Bool)
    (s : ConfigStore S) : Prop :=
  ∃ map sum, Holds front back plan map sum s ∧ map ModuleId.net = some [b] ∧
    (right = true → sum = checksum (map.joined plan))

theorem ModeStored.congr (h : ModeStored front back plan b right s) (hslots : s'.slots = s.slots)
    (hbytes : s'.bytes = s.bytes) : ModeStored front back plan b right s' := by
  obtain ⟨map, sum, hholds, hnet, hsum⟩ := h
  exact ⟨map, sum, hholds.congr hslots hbytes, hnet, hsum⟩

theorem ModeStored.write (h : ModeStored front back plan b right s) (id : UInt8)
    (data : List UInt8) : ∃ answer s', (write id data).run s = .ok (answer, s') ∧
      ModeStored front back plan (modeWritten b id data) right s' := by
  obtain ⟨map, sum, hholds, hnet, hsum⟩ := h
  cases hblock : map id with
  | none =>
    have hid : id ≠ ModuleId.net := by
      rintro rfl
      rw [hnet] at hblock
      cases hblock
    refine ⟨_, s, write_of_slot_none (hholds.slot_none hblock), ?_⟩
    rw [modeWritten_of_ne hid]
    exact ⟨map, sum, hholds, hnet, hsum⟩
  | some block =>
    have hown (hid : id = ModuleId.net) : block = [b] := by
      rw [hid, hnet] at hblock
      exact (Option.some.inj hblock).symm
    by_cases hfit : data.length ≤ block.length
    · obtain ⟨s', hrun, hholds'⟩ := hholds.write_done hblock hfit rfl
      refine ⟨_, s', hrun, _, _, hholds', ?_, fun _ => rfl⟩
      by_cases hid : id = ModuleId.net
      · obtain rfl := hown hid
        rw [hid, Function.update_self, modeWritten_net hfit]
      · rw [Function.update_of_ne (Ne.symm hid), modeWritten_of_ne hid, hnet]
    · have hlarge := Nat.not_le.1 hfit
      refine ⟨_, s, hholds.write_tooLarge hblock hlarge, ?_⟩
      have hsame : modeWritten b id data = b := by
        by_cases hid : id = ModuleId.net
        · obtain rfl := hown hid
          exact modeWritten_of_long hlarge
        · exact modeWritten_of_ne hid data
      rw [hsame]
      exact ⟨map, sum, hholds, hnet, hsum⟩

theorem ModeStored.write_mode (h : ModeStored front back plan b right s) (b' : UInt8) :
    ∃ s', (ConfigStore.write ModuleId.net [b']).run s = .ok (.ok (), s') ∧
      ModeStored front back plan b' true s' := by
  obtain ⟨map, sum, hholds, hnet, -⟩ := h
  obtain ⟨s', hrun, hholds'⟩ := hholds.write_done hnet
    (show [b'].length ≤ [b].length from Nat.le_refl 1) rfl
  exact ⟨s', hrun, _, _, hholds', Function.update_self .., fun _ => rfl⟩

theorem ModeStored.persist {p : Persist β} {a : β} {id : UInt8}
    (h : ModeStored front back plan b right s) (confined : p.Confined id)
    (hid : id ≠ ModuleId.net) (hrun : (persist p).run s = .ok (a, s')) :
    ModeStored front back plan b right s' := by
  induction p generalizing s with
  | done =>
    cases hrun
    exact h
  | fail => cases hrun
  | write i data next ih =>
    obtain ⟨rfl, hnext⟩ := confined
    obtain ⟨answer, s₁, hwrite, h₁⟩ := h.write i data
    rw [modeWritten_of_ne hid] at h₁
    rw [ConfigStore.persist, run_bind hwrite] at hrun
    exact ih answer h₁ (hnext answer) hrun

theorem ModeStored.configure_other {m : α} {x : α ⊕ Node (Recorded W)}
    (h : ModeStored front back plan b right s) (confined : Module.Confined m)
    (hid : Module.moduleId m ≠ ModuleId.net)
    (hrun : (configure valid (.inl m)).run s = .ok (x, s')) :
    ∃ m', x = .inl m' ∧ ModeStored front back plan b right s' := by
  have hstored := h
  obtain ⟨map, sum, hholds, -⟩ := hstored
  obtain ⟨s₁, hslots, hbytes, hconfigure⟩ :=
    hholds.configure_run valid (.inl m : α ⊕ Node (Recorded W))
  rw [hconfigure] at hrun
  have hprogram (block? : Option (List UInt8)) :
      Module.configure (.inl m : α ⊕ Node (Recorded W)) block? =
        (Module.configure m block?).map .inl := rfl
  rw [hprogram, persist_map] at hrun
  obtain ⟨m', s₂, hpersist, hdone⟩ := ok_of_bind hrun
  cases hdone
  exact ⟨m', rfl, (h.congr hslots hbytes).persist (confined _) hid hpersist⟩

theorem ModeStored.configure_others {ms : List α} {xs : List (α ⊕ Node (Recorded W))}
    (h : ModeStored front back plan b right s) (confined : ∀ m ∈ ms, Module.Confined m)
    (others : ∀ m ∈ ms, Module.moduleId m ≠ ModuleId.net)
    (hrun : ((ms.map Sum.inl).mapM (configure valid)).run s = .ok (xs, s')) :
    ∃ ms' : List α, xs = ms'.map .inl ∧ ModeStored front back plan b right s' := by
  induction ms generalizing s xs with
  | nil =>
    cases hrun
    exact ⟨[], rfl, h⟩
  | cons m ms ih =>
    rw [List.map_cons, List.mapM_cons] at hrun
    obtain ⟨x, s₁, hfirst, hrun⟩ := ok_of_bind hrun
    obtain ⟨xs, s₂, hrest, hdone⟩ := ok_of_bind hrun
    cases hdone
    obtain ⟨m', rfl, h₁⟩ := h.configure_other (confined m List.mem_cons_self)
      (others m List.mem_cons_self) hfirst
    obtain ⟨ms', rfl, h₂⟩ := ih h₁ (fun m hm => confined m (List.mem_cons_of_mem _ hm))
      (fun m hm => others m (List.mem_cons_of_mem _ hm)) hrest
    exact ⟨m' :: ms', rfl, h₂⟩

omit [Bytewise S] in
theorem bringUp_configures {mode : RadioMode} {n' : Node (Recorded W)} (enabled : n.enabled = true)
    (hrun : (ConfigStore.persist (n.bringUp mode)).run s = .ok (n', s')) :
    configurations n'.world.log = configurations n.world.log ++ [(n.identity, mode)] ∧
      s' = s := by
  unfold bringUp at hrun
  cases hinit : (initRadio mode).run n with
  | error f =>
    rw [hinit] at hrun
    cases hrun
  | ok r =>
    rw [hinit] at hrun
    cases hrun
    exact ⟨initRadio_configures enabled hinit, rfl⟩

theorem ModeStored.configure_node {x : α ⊕ Node (Recorded W)}
    (h : ModeStored front back plan b right s) (hvalid : valid = true → right = true)
    (enabled : n.enabled = true) (hrun : (configure valid (.inr n)).run s = .ok (x, s')) :
    ∃ n', x = .inr n' ∧
      configurations n'.world.log =
        configurations n.world.log ++ [(n.identity, modeDue valid b)] ∧
      ModeStored front back plan (modeDue valid b).byte true s' := by
  have hstored := h
  obtain ⟨map, sum, hholds, hnet, -⟩ := hstored
  obtain ⟨s₁, hslots, hbytes, hconfigure⟩ :=
    hholds.configure_run valid (.inr n : α ⊕ Node (Recorded W))
  have hnet' : map (Module.moduleId (.inr n : α ⊕ Node (Recorded W))) = some [b] := hnet
  have hprogram (block? : Option (List UInt8)) :
      Module.configure (.inr n : α ⊕ Node (Recorded W)) block? =
        (Node.configure n block?).map .inr := rfl
  rw [hconfigure, hnet', hprogram, persist_map] at hrun
  obtain ⟨n', s₂, hpersist, hdone⟩ := ok_of_bind hrun
  cases hdone
  have h₁ := h.congr hslots hbytes
  refine ⟨n', rfl, ?_⟩
  obtain ⟨hright, hbyte, hprogram⟩ | ⟨hdue, hprogram⟩ := Node.configure_byte n valid b
  · rw [hprogram] at hpersist
    obtain ⟨hconfigured, rfl⟩ := bringUp_configures enabled hpersist
    rw [hbyte, ← hvalid hright]
    exact ⟨hconfigured, h₁⟩
  · obtain ⟨s₂, hwrite, h₂⟩ := h₁.write_mode RadioMode.normal.byte
    rw [hprogram, ConfigStore.persist, run_bind hwrite] at hpersist
    obtain ⟨hconfigured, rfl⟩ := bringUp_configures enabled hpersist
    rw [hdue]
    exact ⟨hconfigured, h₂⟩

theorem ModeStored.intact (h : ModeStored front back plan b true s) :
    ∃ t, ConfigStore.intact.run s = .ok (true, t) ∧ t.slots = s.slots ∧ t.bytes = s.bytes := by
  obtain ⟨map, sum, hholds, -, hsum⟩ := h
  have hintact := hholds.intact
  rwa [decide_eq_true (hsum rfl)] at hintact

theorem ModeStored.blockMap (h : ModeStored front back plan b right s) :
    s.blockMap ModuleId.net = some [b] := by
  obtain ⟨map, sum, hholds, hnet, -⟩ := h
  rw [hholds.blockMap, hnet]

theorem ModeStored.laidOutFor {β : Type} [Module β] {modules : List β}
    (h : ModeStored front back plan b right s)
    (laysOut : LaysOut front back (Module.sizes modules) plan) :
    ModeStored front back plan b right (s.laidOutFor modules) := by
  obtain ⟨map, sum, hholds, hnet, hsum⟩ := h
  exact ⟨map, sum, hholds.laidOutFor laysOut, hnet, hsum⟩

section Boot

variable {blocks : Plan} {answer : StoreAnswer (α ⊕ Node (Recorded W))} {t : ConfigStore S}

theorem ModeStored.restart
    (h : ModeStored front back plan b valid (s.laidOutFor (roster before n after)))
    (bootable : Bootable blocks before n after) (distinct : (blocks.map Prod.fst).Nodup)
    (hintact : ConfigStore.intact.run (s.laidOutFor (roster before n after)) = .ok (valid, t))
    (hslots : t.slots = (s.laidOutFor (roster before n after)).slots)
    (hbytes : t.bytes = (s.laidOutFor (roster before n after)).bytes)
    (hrun : (perform (.restart (roster before n after))).run s = .ok (answer, s')) :
    ∃ before' n' after', answer = .restarted valid (roster before' n' after') ∧
      configurations n'.world.log =
        configurations n.world.log ++ [(n.identity, modeDue valid b)] ∧
      ModeStored front back plan (modeDue valid b).byte true s' := by
  rw [perform, run_restart_bind hintact, roster, List.mapM_append, List.mapM_cons] at hrun
  obtain ⟨xs, s₃, hall, hdone⟩ := ok_of_bind hrun
  cases hdone
  obtain ⟨first, s₁, hbefore, hall⟩ := ok_of_bind hall
  obtain ⟨rest, s₂, hbehind, hdone⟩ := ok_of_bind hall
  cases hdone
  obtain ⟨x, s₂, hnode, hbehind⟩ := ok_of_bind hbehind
  obtain ⟨last, s₃, hafter, hdone⟩ := ok_of_bind hbehind
  cases hdone
  have hothers := bootable.others distinct
  obtain ⟨before', rfl, h₁⟩ := (h.congr hslots hbytes).configure_others
    (fun m hm => bootable.confined m (List.mem_append_left _ hm))
    (fun m hm => hothers m (List.mem_append_left _ hm)) hbefore
  obtain ⟨n', rfl, hconfigured, h₂⟩ := h₁.configure_node id bootable.enabled hnode
  obtain ⟨after', rfl, h₃⟩ := h₂.configure_others
    (fun m hm => bootable.confined m (List.mem_append_right _ hm))
    (fun m hm => hothers m (List.mem_append_right _ hm)) hafter
  exact ⟨before', n', after', rfl, hconfigured, h₃⟩

theorem ModeStored.command {command : StoreCommand (α ⊕ Node (Recorded W))}
    (h : ModeStored front back plan b true s) (laysOut : LaysOut front back blocks plan)
    (distinct : (blocks.map Prod.fst).Nodup) (continues : command.Continues blocks)
    (hrun : (perform command).run s = .ok (answer, s')) :
    ModeStored front back plan (command.modeByte b) true s' := by
  cases command with
  | write id data =>
    obtain ⟨_, s₁, hwrite, h₁⟩ := h.write id data
    obtain ⟨_, s₂, hwrite', hdone⟩ := ok_of_bind hrun
    cases hwrite.symm.trans hwrite'
    cases hdone
    exact h₁
  | read id buffer =>
    have hstored := h
    obtain ⟨map, sum, hholds, -⟩ := hstored
    obtain ⟨s₁, hread, hslots, hbytes⟩ := hholds.read id buffer
    obtain ⟨_, s₂, hread', hdone⟩ := ok_of_bind hrun
    cases hread.symm.trans hread'
    cases hdone
    exact h.congr hslots hbytes
  | restart modules =>
    obtain ⟨before, n, after, rfl, bootable⟩ := continues
    have hlaid := h.laidOutFor (bootable.sizes ▸ laysOut)
    obtain ⟨t, hintact, hslots, hbytes⟩ := hlaid.intact
    obtain ⟨-, -, -, -, -, h₁⟩ :=
      hlaid.restart bootable distinct hintact hslots hbytes hrun
    exact h₁

theorem ModeStored.commands {history : List (StoreCommand (α ⊕ Node (Recorded W)))}
    {answers : List (StoreAnswer (α ⊕ Node (Recorded W)))}
    (h : ModeStored front back plan b true s) (laysOut : LaysOut front back blocks plan)
    (distinct : (blocks.map Prod.fst).Nodup) (continues : ∀ c ∈ history, c.Continues blocks)
    (hrun : (history.mapM perform).run s = .ok (answers, s')) :
    ModeStored front back plan (history.foldl StoreCommand.modeByte b) true s' := by
  induction history generalizing s b answers with
  | nil =>
    cases hrun
    exact h
  | cons command history ih =>
    rw [List.mapM_cons] at hrun
    obtain ⟨_, s₁, hfirst, hrun⟩ := ok_of_bind hrun
    obtain ⟨_, s₂, hrest, hdone⟩ := ok_of_bind hrun
    cases hdone
    have h₁ := h.command laysOut distinct (continues command List.mem_cons_self) hfirst
    exact ih h₁ (fun c hc => continues c (List.mem_cons_of_mem _ hc)) hrest

theorem modeStored_of_laidOut (bootable : Bootable blocks before n after)
    (distinct : (blocks.map Prod.fst).Nodup)
    (slotted : ∃ slot ∈ Layout.slots (Storage.capacity s.storage) blocks,
      slot.moduleId = ModuleId.net) :
    ∃ front back plan b valid t, LaysOut front back blocks plan ∧
      ConfigStore.intact.run (s.laidOutFor (roster before n after)) = .ok (valid, t) ∧
      t.slots = (s.laidOutFor (roster before n after)).slots ∧
      t.bytes = (s.laidOutFor (roster before n after)).bytes ∧
      ModeStored front back plan b valid (s.laidOutFor (roster before n after)) := by
  obtain ⟨slot, hslot, hid⟩ := slotted
  obtain ⟨rfl, -, -⟩ := bootable
  have hne : (s.laidOutFor (roster before n after)).slots ≠ [] := List.ne_nil_of_mem hslot
  obtain ⟨sum, hholds⟩ := holds_of_laidOut distinct rfl hne
  obtain ⟨t, hintact, hslots, hbytes⟩ := hholds.intact
  obtain ⟨block, hblock⟩ :
      ∃ block, (s.laidOutFor (roster before n after)).blockMap ModuleId.net = some block := by
    have hfound : ((s.laidOutFor (roster before n after)).slot? ModuleId.net).isSome = true :=
      List.find?_isSome.2 ⟨slot, hslot, beq_iff_eq.2 hid⟩
    obtain ⟨slot', hslot'⟩ := Option.isSome_iff_exists.1 hfound
    exact ⟨_, by rw [ConfigStore.blockMap, hslot', Option.map_some]⟩
  have hlength : block.length = 1 := by
    have hlookup := hholds.fits ModuleId.net
    rw [hblock, Option.map_some, eq_comm] at hlookup
    exact @size_of_lookup _ _ S _ s (roster before n after) (.inr n) distinct (by simp [roster])
      _ hlookup
  obtain ⟨b, rfl⟩ := List.length_eq_one_iff.1 hlength
  exact ⟨_, _, _, b, _, t, hholds.laysOut rfl, hintact, hslots, hbytes, _, sum, hholds, hblock,
    of_decide_eq_true⟩

/-- After this boot of the node: its radio was set up once, in this mode, and the blocks are intact
and say so. -/
structure Booted (n n' : Node (Recorded W)) (mode : RadioMode) (s' : ConfigStore S) : Prop where
  configured : configurations n'.world.log =
    configurations n.world.log ++ [(n.identity, mode)]
  intact : ∃ t, ConfigStore.intact.run s' = .ok (true, t)
  stored : s'.blockMap ModuleId.net = some [mode.byte]

/-- A restart with the node among other modules boots it in this mode, unless a module breaks it
off. -/
def BootsIn (before : List α) (n : Node (Recorded W)) (after : List α) (valid : Bool)
    (mode : RadioMode) (s : ConfigStore S) : Prop :=
  match (perform (.restart (roster before n after))).run s with
  | .error fault => StoreCommand.Fails fault (.restart (roster before n after))
  | .ok (answer, s') => ∃ before' n' after', answer = .restarted valid (roster before' n' after') ∧
      Booted n n' mode s'

theorem BootsIn.of_ok {mode : RadioMode} (h : BootsIn before n after valid mode s)
    (hrun : (perform (.restart (roster before n after))).run s = .ok (answer, s')) :
    ∃ before' n' after', answer = .restarted valid (roster before' n' after') ∧
      Booted n n' mode s' := by
  rw [BootsIn, hrun] at h
  exact h

theorem ModeStored.boots
    (h : ModeStored front back plan b valid (s.laidOutFor (roster before n after)))
    (bootable : Bootable blocks before n after) (distinct : (blocks.map Prod.fst).Nodup)
    (hintact : ConfigStore.intact.run (s.laidOutFor (roster before n after)) = .ok (valid, t))
    (hslots : t.slots = (s.laidOutFor (roster before n after)).slots)
    (hbytes : t.bytes = (s.laidOutFor (roster before n after)).bytes) :
    BootsIn before n after valid (modeDue valid b) s := by
  rw [BootsIn]
  cases hrun : (perform (.restart (roster before n after))).run s with
  | error fault =>
    have hends := restart_ends (s := s) rfl (roster before n after)
    rw [Ends, hrun] at hends
    exact hends
  | ok r =>
    obtain ⟨before', n', after', hanswer, hconfigured, h'⟩ :=
      h.restart bootable distinct hintact hslots hbytes hrun
    obtain ⟨t', hintact', -⟩ := h'.intact
    exact ⟨before', n', after', hanswer, hconfigured, ⟨t', hintact'⟩, h'.blockMap⟩

/-- Let a node be booted among modules of other ids that keep to their own blocks, and let there be
a slot for its radio mode. Whatever the storage holds, the radio is set up once: in the mode stored
if the blocks were intact and the byte is that of a mode, and in the normal one otherwise. The
blocks are intact then, with the byte of that mode. From there on, whatever is written, read and
booted again with the same modules, the byte is the one last written, or that of the mode of the
last boot, and every boot sets up the radio in the mode that this byte stands for, or in the normal
one and stores that. It is the same mode as long as nothing is written for it. -/
theorem radio_mode_survives_boots (bootable : Bootable blocks before n after)
    (distinct : (blocks.map Prod.fst).Nodup)
    (slotted : ∃ slot ∈ Layout.slots (Storage.capacity s.storage) blocks,
      slot.moduleId = ModuleId.net) :
    ∃ valid t b, ConfigStore.intact.run (s.laidOutFor (roster before n after)) = .ok (valid, t) ∧
      (s.laidOutFor (roster before n after)).blockMap ModuleId.net = some [b] ∧
      BootsIn before n after valid (modeDue valid b) s ∧
      ∀ answer s₁, (perform (.restart (roster before n after))).run s = .ok (answer, s₁) →
        ∀ history : List (StoreCommand (α ⊕ Node (Recorded W))),
          (∀ c ∈ history, c.Continues blocks) →
          ∀ answers s₂, (history.mapM perform).run s₁ = .ok (answers, s₂) →
            ∃ b', b' = history.foldl StoreCommand.modeByte (modeDue valid b).byte ∧
              s₂.blockMap ModuleId.net = some [b'] ∧
              ((∀ c ∈ history, ¬ c.WritesMode) → modeDue true b' = modeDue valid b) ∧
              ∀ (before' : List α) (n' : Node (Recorded W)) (after' : List α),
                Bootable blocks before' n' after' →
                BootsIn before' n' after' true (modeDue true b') s₂ := by
  obtain ⟨front, back, plan, b, valid, t, laysOut, hintact, hslots, hbytes, h⟩ :=
    modeStored_of_laidOut (s := s) bootable distinct slotted
  refine ⟨valid, t, b, hintact, h.blockMap, h.boots bootable distinct hintact hslots hbytes, ?_⟩
  intro answer s₁ hfirst history continues answers s₂ hruns
  obtain ⟨-, -, -, -, -, h₁⟩ := h.restart bootable distinct hintact hslots hbytes hfirst
  have h₂ := h₁.commands laysOut distinct continues hruns
  refine ⟨_, rfl, h₂.blockMap, ?_, ?_⟩
  · intro spared
    rw [StoreCommand.foldl_modeByte _ spared, modeDue_byte]
  · intro before' n' after' bootable'
    have hlaid := h₂.laidOutFor (bootable'.sizes ▸ laysOut)
    obtain ⟨t', hintact', hslots', hbytes'⟩ := hlaid.intact
    exact hlaid.boots bootable' distinct hintact' hslots' hbytes'

end Boot

section Probes

open Bench

def busyProbe : Probe := { id := 20, size := 2, onNone := [(20, [5, 6])], onSome := [(20, [7])] }

theorem bootable_busyProbe :
    Bootable [(20, 2), (ModuleId.net, 1)] [busyProbe] (benchStart {}) [] where
  sizes := rfl
  confined := by
    intro m hm block?
    obtain rfl : m = busyProbe := by simpa using hm
    cases block? <;> exact ⟨rfl, fun _ => trivial⟩
  enabled := rfl

def modeHistory : List (StoreCommand (Probe ⊕ Node (Recorded World))) :=
  [.write 20 [9], .restart (roster [busyProbe] (benchStart {}) []), .write ModuleId.net [3]]

def erasedStore : ConfigStore Memory := { storage := .erased 40 }

/-- The first boot over erased storage sets up the radio in the normal mode, and one after the
slow mode was written in that. -/
theorem written_mode_survives_boots : ∃ b₁ n₁ a₁ s₁ answers s₂ b₂ n₂ a₂ s₃,
    (perform (.restart (roster [busyProbe] (benchStart {}) []))).run erasedStore =
      .ok (.restarted false (roster b₁ n₁ a₁), s₁) ∧
    configurations n₁.world.log = [({}, .normal)] ∧ s₁.blockMap ModuleId.net = some [1] ∧
    (modeHistory.mapM perform).run s₁ = .ok (answers, s₂) ∧
    (perform (.restart (roster [busyProbe] (benchStart {}) []))).run s₂ =
      .ok (.restarted true (roster b₂ n₂ a₂), s₃) ∧
    configurations n₂.world.log = [({}, .slow)] ∧ s₃.blockMap ModuleId.net = some [3] := by
  have hruns : ((perform (.restart (roster [busyProbe] (benchStart {}) []))).run
      erasedStore).toOption.any (fun r =>
        ((modeHistory.mapM perform).run r.2).toOption.any fun r =>
          ((perform (.restart (roster [busyProbe] (benchStart {}) []))).run r.2).toOption.any
            fun _ => true) = true := by
    decide +kernel
  obtain ⟨first, s₁, hfirst, hruns⟩ := ok_of_any hruns
  obtain ⟨answers, s₂, hhistory, hruns⟩ := ok_of_any hruns
  obtain ⟨last, s₃, hlast, -⟩ := ok_of_any hruns
  have hslotted : ∃ slot ∈ Layout.slots (Storage.capacity erasedStore.storage)
      [(20, 2), (ModuleId.net, 1)], slot.moduleId = ModuleId.net := by decide +kernel
  have hcontinues : ∀ c ∈ modeHistory, c.Continues [(20, 2), (ModuleId.net, 1)] := by
    intro c hc
    simp only [modeHistory, List.mem_cons, List.not_mem_nil, or_false] at hc
    rcases hc with rfl | rfl | rfl
    · trivial
    · exact ⟨_, _, _, rfl, bootable_busyProbe⟩
    · trivial
  obtain ⟨valid, t, b, hintact, -, hboots, hlater⟩ :=
    radio_mode_survives_boots bootable_busyProbe (by decide) hslotted
  have herased : ConfigStore.intact.run
      (erasedStore.laidOutFor (roster [busyProbe] (benchStart {}) [])) =
        .ok (false, erasedStore.laidOutFor (roster [busyProbe] (benchStart {}) [])) := by
    decide +kernel
  cases herased.symm.trans hintact
  obtain ⟨b₁, n₁, a₁, rfl, hbooted⟩ := hboots.of_ok hfirst
  obtain ⟨_, rfl, -, -, hagain⟩ := hlater _ _ hfirst modeHistory hcontinues _ _ hhistory
  obtain ⟨b₂, n₂, a₂, rfl, hbooted'⟩ := (hagain _ _ _ bootable_busyProbe).of_ok hlast
  exact ⟨b₁, n₁, a₁, s₁, answers, s₂, b₂, n₂, a₂, s₃, hfirst, hbooted.configured, hbooted.stored,
    hhistory, hlast, hbooted'.configured, hbooted'.stored⟩

end Probes

end ConfigStore
end StarNet
