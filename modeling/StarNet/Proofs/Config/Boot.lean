import StarNet.Proofs.Config.History

/-!
What restarts with the same modules hand out. Whatever the storage held, the first restart leaves
intact blocks, those that it handed out or those that the modules then wrote. From there on every
restart hands out just these and writes nothing.
-/
namespace StarNet

variable {α : Type} [Module α]

def Module.Blockless (module : α) : Prop :=
  Module.blockSize module = 0 ∧
    ∀ block?, ∃ module', Module.configure module block? = .done module'

/-- Handed no block the module persists one of its full size, if it has any bytes to persist, and
handed a block it writes nothing. -/
def Module.PersistsDefaults (module : α) : Prop :=
  Module.KeepsBlock module ∨ Module.Blockless module

def handings (events : List StoreEvent) : List (UInt8 × Option (List UInt8)) :=
  events.filterMap fun
    | .handed id block? => some (id, block?)
    | _ => none

theorem handings_append (es es' : List StoreEvent) :
    handings (es ++ es') = handings es ++ handings es' := List.filterMap_append

def BlockMap.dealt (map : BlockMap) (ids : List UInt8) : List (UInt8 × Option (List UInt8)) :=
  ids.map fun id => (id, map id)

/-- If the stored blocks were valid, the first restart dealt out those, and they are the map. If
not, it handed out nothing and the blocks are what the modules then wrote. -/
structure Established (modules : List α) (valid : Bool) (log : List StoreEvent) (map : BlockMap) :
    Prop where
  dealt : valid = true → handings log = map.dealt (modules.map Module.moduleId)
  refused : valid = false →
    handings log = BlockMap.dealt (fun _ => none) (modules.map Module.moduleId)
  written : valid = false → ∀ m ∈ modules, ∀ block, map (Module.moduleId m) = some block →
    .wrote (Module.moduleId m) block (.ok ()) ∈ log

theorem Established.of_dealt {modules : List α} {log : List StoreEvent} {map : BlockMap}
    (h : handings log = map.dealt (modules.map Module.moduleId)) :
    Established modules true log map where
  dealt _ := h
  refused hvalid := Bool.noConfusion hvalid
  written hvalid := Bool.noConfusion hvalid

theorem Established.nil (map : BlockMap) : Established ([] : List α) false [] map where
  dealt hvalid := Bool.noConfusion hvalid
  refused _ := rfl
  written _ _ hm := absurd hm List.not_mem_nil

theorem Established.cons {m : α} {modules : List α} {first log : List StoreEvent} {map : BlockMap}
    (h : Established modules false log map) (hfirst : handings first = [(Module.moduleId m, none)])
    (hwritten : ∀ block, map (Module.moduleId m) = some block →
      .wrote (Module.moduleId m) block (.ok ()) ∈ first) :
    Established (m :: modules) false (first ++ log) map where
  dealt hvalid := Bool.noConfusion hvalid
  refused hvalid := by
    rw [handings_append, hfirst, h.refused hvalid]
    rfl
  written hvalid m' hm' block hblock := by
    rcases List.mem_cons.1 hm' with rfl | hm'
    · exact List.mem_append_left _ (hwritten block hblock)
    · exact List.mem_append_right _ (h.written hvalid m' hm' block hblock)

namespace ConfigStore

variable {S : Type} [Storage S] [Bytewise S] {s s₁ s₂ : ConfigStore S} {front back : List UInt8}
  {plan : Plan} {map : BlockMap} {sum : Checksum} {module : α} {modules : List α}
  {block : List UInt8}

/-- The modules persist their defaults, and those in the plan have bytes to persist. -/
structure Ready (plan : Plan) (modules : List α) : Prop where
  persists : ∀ m ∈ modules, Module.PersistsDefaults m
  sized : ∀ e ∈ Module.sizes modules, ∀ size, plan.lookup e.1 = some size → size = e.2 ∧ 0 < size

theorem Ready.of_cons {m : α} (h : Ready plan (m :: modules)) : Ready plan modules :=
  ⟨fun m' hm' => h.persists m' (List.mem_cons_of_mem _ hm'),
    fun e he => h.sized e (List.mem_cons_of_mem _ he)⟩

theorem Ready.keeps (h : Ready plan modules) (hfits : map.Fits plan) (hm : module ∈ modules)
    (hblock : map (Module.moduleId module) = some block) :
    Module.KeepsBlock module ∧ block.length = Module.blockSize module := by
  have hlookup := hfits (Module.moduleId module)
  rw [hblock, Option.map_some, eq_comm] at hlookup
  obtain ⟨hsize, hpos⟩ := h.sized _ (List.mem_map_of_mem hm) _ hlookup
  rcases h.persists module hm with hkeeps | ⟨hzero, -⟩
  · exact ⟨hkeeps, hsize⟩
  · omega

omit [Bytewise S] in
theorem Ready.of_laidOutFor (distinct : ((Module.sizes modules).map Prod.fst).Nodup)
    (persists : ∀ m ∈ modules, Module.PersistsDefaults m) :
    Ready ((s.laidOutFor modules).slots.map Slot.entry) modules where
  persists := persists
  sized := by
    intro e he size hlookup
    obtain ⟨m, hm, rfl⟩ := List.mem_map.1 he
    refine ⟨size_of_lookup distinct hm hlookup, ?_⟩
    obtain ⟨before, after, hsplit, -⟩ := List.lookup_eq_some_iff.1 hlookup
    have hmem : (Module.moduleId m, size) ∈ (s.laidOutFor modules).slots.map Slot.entry := by
      rw [hsplit]
      simp
    obtain ⟨slot, hslot, hentry⟩ := List.mem_map.1 hmem
    obtain ⟨-, rfl⟩ := Prod.mk.inj hentry
    exact (Layout.size_of_mem_slotsFrom hslot).1

omit [Bytewise S] in
theorem configure_without_slot (h : Module.PersistsDefaults module)
    (hslot : s.slot? (Module.moduleId module) = none) (valid : Bool) : ∃ o : Observed α,
      (configure valid (Observed.fresh module)).run s = .ok (o, s) ∧
      handings o.log = [(Module.moduleId module, none)] := by
  rcases h with hkeeps | ⟨-, hdone⟩
  · obtain ⟨o, data, hrun, hlog⟩ := configure_unslotted hkeeps hslot valid
    exact ⟨o, hrun, hlog ▸ rfl⟩
  · obtain ⟨module', hnone⟩ := hdone none
    refine ⟨⟨module', [.handed (Module.moduleId module) none]⟩, ?_, rfl⟩
    rw [@configure_none S _ s (Observed α) _ (.fresh module) valid (.inl hslot)]
    simp only [Module.configure, hnone, Persist.observed, persist]
    rfl

theorem Holds.configure_dealt (h : Holds front back plan map sum s) (hready : Ready plan modules)
    (hm : module ∈ modules) : ∃ (o : Observed α) (s₁ : ConfigStore S),
      (configure true (Observed.fresh module)).run s = .ok (o, s₁) ∧ s₁.slots = s.slots ∧
      s₁.bytes = s.bytes ∧
      handings o.log = [(Module.moduleId module, map (Module.moduleId module))] := by
  cases hblock : map (Module.moduleId module) with
  | none =>
    obtain ⟨o, hrun, hlog⟩ :=
      configure_without_slot (hready.persists module hm) (h.slot_none hblock) true
    exact ⟨o, s, hrun, rfl, rfl, hlog⟩
  | some block =>
    obtain ⟨hkeeps, -⟩ := hready.keeps h.fits hm hblock
    obtain ⟨o, s₁, hrun, hslots, hbytes, hlog⟩ := h.configure_handed hkeeps hblock
    exact ⟨o, s₁, hrun, hslots, hbytes, hlog ▸ rfl⟩

theorem Holds.deal (h : Holds front back plan map sum s) (hready : Ready plan modules) :
    ∃ os s₁, ((modules.map Observed.fresh).mapM (configure true)).run s = .ok (os, s₁) ∧
      s₁.slots = s.slots ∧ s₁.bytes = s.bytes ∧
      handings (os.flatMap (·.log)) = map.dealt (modules.map Module.moduleId) := by
  induction modules generalizing s with
  | nil => exact ⟨[], s, rfl, rfl, rfl, rfl⟩
  | cons m modules ih =>
    obtain ⟨o, s₁, hrun, hslots, hbytes, hlog⟩ := h.configure_dealt hready List.mem_cons_self
    obtain ⟨os, s₂, hrun', hslots', hbytes', hlog'⟩ :=
      ih (h.congr hslots hbytes) hready.of_cons
    refine ⟨o :: os, s₂, mapM_configure_cons hrun hrun', hslots'.trans hslots,
      hbytes'.trans hbytes, ?_⟩
    rw [List.flatMap_cons, handings_append, hlog, hlog']
    rfl

/-- With damaged blocks every module is handed nothing, and those with a slot write the block that
they then have. One of them is enough to renew the checksum. -/
theorem Holds.renew (h : Holds front back plan map sum s) (hready : Ready plan modules)
    (distinct : (modules.map Module.moduleId).Nodup) : ∃ os s₁ map' sum',
      ((modules.map Observed.fresh).mapM (configure false)).run s = .ok (os, s₁) ∧
      Holds front back plan map' sum' s₁ ∧ Established modules false (os.flatMap (·.log)) map' ∧
      (∀ id, id ∉ modules.map Module.moduleId → map' id = map id) ∧
      ((sum = checksum (map.joined plan) ∨ ∃ m ∈ modules, map (Module.moduleId m) ≠ none) →
        sum' = checksum (map'.joined plan)) := by
  induction modules generalizing s map sum with
  | nil =>
    refine ⟨[], s, map, sum, rfl, h, .nil map, fun _ _ => rfl, ?_⟩
    rintro (hsum | ⟨m, hm, -⟩)
    · exact hsum
    · cases hm
  | cons m modules ih =>
    rw [List.map_cons, List.nodup_cons] at distinct
    obtain ⟨hnew, hrest⟩ := distinct
    cases hblock : map (Module.moduleId m) with
    | none =>
      obtain ⟨o, hrun, hlog⟩ := configure_without_slot
        (hready.persists m List.mem_cons_self) (h.slot_none hblock) false
      obtain ⟨os, s₁, map', sum', hrun', hholds, hestablished, hothers, hsum⟩ :=
        ih h hready.of_cons hrest
      have hown : map' (Module.moduleId m) = none := (hothers _ hnew).trans hblock
      refine ⟨o :: os, s₁, map', sum', mapM_configure_cons hrun hrun', hholds, ?_, ?_, ?_⟩
      · apply hestablished.cons hlog
        intro block hwritten
        rw [hown] at hwritten
        cases hwritten
      · intro id hid
        exact hothers id fun hmem => hid (List.mem_cons_of_mem _ hmem)
      · rintro (hright | ⟨m', hm', hslotted⟩)
        · exact hsum (.inl hright)
        · rcases List.mem_cons.1 hm' with rfl | hm'
          · exact absurd hblock hslotted
          · exact hsum (.inr ⟨m', hm', hslotted⟩)
    | some block =>
      obtain ⟨hkeeps, hsize⟩ := hready.keeps h.fits List.mem_cons_self hblock
      obtain ⟨o, s₁, data, map₁, hrun, -, hlog, hmap, hholds₁⟩ :=
        h.configure_default hkeeps hblock hsize
      obtain ⟨os, s₂, map', sum', hrun', hholds, hestablished, hothers, hsum⟩ :=
        ih hholds₁ hready.of_cons hrest
      have hown : map' (Module.moduleId m) = some data := by
        rw [hothers _ hnew, hmap, Function.update_self]
      have hhanded : handings o.log = [(Module.moduleId m, none)] := by
        rw [hlog]
        rfl
      have hwrote : .wrote (Module.moduleId m) data (.ok ()) ∈ o.log := by
        rw [hlog]
        simp [defaultEvents]
      refine ⟨o :: os, s₂, map', sum', mapM_configure_cons hrun hrun', hholds, ?_, ?_,
        fun _ => hsum (.inl rfl)⟩
      · apply hestablished.cons hhanded
        intro block' hwritten
        rw [hown] at hwritten
        cases hwritten
        exact hwrote
      · intro id hid
        rw [List.map_cons, List.mem_cons, not_or] at hid
        rw [hothers id hid.2, hmap, Function.update_of_ne hid.1]

theorem Holds.laysOut {blocks : List (UInt8 × Nat)} (h : Holds front back plan map sum s)
    (laidOut : s.slots = Layout.slots (Storage.capacity s.storage) blocks) :
    LaysOut front back blocks plan := by
  rw [LaysOut, ← h.length_bytes, ← h.slots, laidOut, Bytewise.capacity_eq]
  rfl

theorem Holds.exists_slotted (h : Holds front back plan map sum (s.laidOutFor modules))
    (slotted : (s.laidOutFor modules).slots ≠ []) :
    ∃ m ∈ modules, map (Module.moduleId m) ≠ none := by
  obtain ⟨slot, slots, hcons⟩ := List.exists_cons_of_ne_nil slotted
  have hentry : slot.entry ∈ (s.laidOutFor modules).slots.map Slot.entry := by
    rw [hcons]
    exact List.mem_cons_self
  obtain ⟨m, hm, hslot⟩ := List.mem_map.1 (Layout.entries_slotsFrom_sublist.subset hentry)
  refine ⟨m, hm, ?_⟩
  rw [h.slots, Layout.map_entry_place, ← hslot] at hentry
  rw [Ne, h.fits.eq_none_iff, BlockMap.lookup_of_mem h.distinct hentry]
  exact Option.some_ne_none _

theorem Stores.restart_intact (h : Stores front back plan map (s.laidOutFor modules))
    (hready : Ready plan modules) :
    ∃ log s₁, (observe (.restart modules)).run s = .ok (.laidOut plan true :: log, s₁) ∧
      Stores front back plan map s₁ ∧ s₁.bytes = s.bytes ∧
      handings log = map.dealt (modules.map Module.moduleId) := by
  obtain ⟨s₁, hintact, hslots₁, hbytes₁⟩ := h.intact
  rw [decide_eq_true rfl] at hintact
  have hstores₁ : Stores front back plan map s₁ := h.congr hslots₁ hbytes₁
  obtain ⟨os, s₂, hrun, hslots₂, hbytes₂, hdealt⟩ := Holds.deal hstores₁ hready
  have hstores₂ : Stores front back plan map s₂ := hstores₁.congr hslots₂ hbytes₂
  have hentries : s₂.slots.map Slot.entry = plan := by
    rw [Holds.slots hstores₂, Layout.map_entry_place]
  refine ⟨os.flatMap (·.log), s₂, ?_, hstores₂, hbytes₂.trans hbytes₁, hdealt⟩
  rw [← hentries]
  exact restart_run hintact hrun

theorem Holds.restart_damaged (h : Holds front back plan map sum (s.laidOutFor modules))
    (hdamaged : sum ≠ checksum (map.joined plan)) (hready : Ready plan modules)
    (distinct : (modules.map Module.moduleId).Nodup) (slotted : (s.laidOutFor modules).slots ≠ []) :
    ∃ log s₁ map', (observe (.restart modules)).run s = .ok (.laidOut plan false :: log, s₁) ∧
      Stores front back plan map' s₁ ∧ Established modules false log map' := by
  obtain ⟨s₁, hintact, hslots, hbytes⟩ := h.intact
  rw [decide_eq_false hdamaged] at hintact
  obtain ⟨os, s₂, map', sum', hrun, hholds, hestablished, -, hsum⟩ :=
    (h.congr hslots hbytes).renew hready distinct
  have hstores : Stores front back plan map' s₂ := by
    rwa [hsum (.inr (h.exists_slotted slotted))] at hholds
  have hentries : s₂.slots.map Slot.entry = plan := by
    rw [hholds.slots, Layout.map_entry_place]
  refine ⟨os.flatMap (·.log), s₂, map', ?_, hstores, hestablished⟩
  rw [← hentries]
  exact restart_run hintact hrun

theorem first_restart (distinct : (modules.map Module.moduleId).Nodup)
    (persists : ∀ m ∈ modules, Module.PersistsDefaults m)
    (slotted : (s.laidOutFor modules).slots ≠ []) :
    ∃ plan valid log s₁ front back map,
      (observe (.restart modules)).run s = .ok (.laidOut plan valid :: log, s₁) ∧
      Stores front back plan map s₁ ∧ Established modules valid log map ∧
      Ready plan modules ∧ LaysOut front back (Module.sizes modules) plan := by
  have hdistinct : ((Module.sizes modules).map Prod.fst).Nodup := by
    rwa [Module.sizes, List.map_map]
  have hready := Ready.of_laidOutFor (s := s) hdistinct persists
  obtain ⟨sum, hholds⟩ := holds_of_laidOut (s := s.laidOutFor modules) hdistinct rfl slotted
  by_cases hvalid : sum = checksum ((s.laidOutFor modules).blockMap.joined
      ((s.laidOutFor modules).slots.map Slot.entry))
  · obtain ⟨log, s₁, hrun, hstores, -, hdealt⟩ :=
      Stores.restart_intact (hvalid ▸ hholds) hready
    exact ⟨_, _, log, s₁, _, _, _, hrun, hstores, .of_dealt hdealt, hready, hholds.laysOut rfl⟩
  · obtain ⟨log, s₁, map', hrun, hstores, hestablished⟩ :=
      hholds.restart_damaged hvalid hready distinct slotted
    exact ⟨_, _, log, s₁, _, _, map', hrun, hstores, hestablished, hready, hholds.laysOut rfl⟩

/-- The same modules again, in whatever state they are. -/
def SameModules (modules again : List α) : Prop :=
  Module.sizes again = Module.sizes modules ∧ ∀ m ∈ again, Module.PersistsDefaults m

theorem Stores.restarts (h : Stores front back plan map s) (hready : Ready plan modules)
    (laysOut : LaysOut front back (Module.sizes modules) plan)
    {later : List (List α)} (same : ∀ again ∈ later, SameModules modules again) :
    ∃ ess s₁, ((later.map StoreCommand.restart).mapM observe).run s = .ok (ess, s₁) ∧
      s₁.bytes = s.bytes ∧ ∀ es ∈ ess, ∃ log, es = .laidOut plan true :: log ∧
        handings log = map.dealt (modules.map Module.moduleId) := by
  induction later generalizing s with
  | nil => exact ⟨[], s, rfl, rfl, fun es hes => absurd hes List.not_mem_nil⟩
  | cons again later ih =>
    obtain ⟨hsizes, hpersists⟩ := same again List.mem_cons_self
    have hready' : Ready plan again := ⟨hpersists, hsizes ▸ hready.sized⟩
    obtain ⟨log, s₁, hrun, hstores, hbytes, hdealt⟩ :=
      (h.laidOutFor (hsizes ▸ laysOut)).restart_intact hready'
    obtain ⟨ess, s₂, hrun', hbytes', hall⟩ :=
      ih hstores fun again' hmem => same again' (List.mem_cons_of_mem _ hmem)
    have hids : again.map Module.moduleId = modules.map Module.moduleId := by
      have hfst := congrArg (List.map Prod.fst) hsizes
      rwa [Module.sizes, Module.sizes, List.map_map, List.map_map] at hfst
    refine ⟨(.laidOut plan true :: log) :: ess, s₂, ?_, hbytes'.trans hbytes, ?_⟩
    · rw [List.map_cons, List.mapM_cons, run_bind hrun, run_bind hrun']
      rfl
    · intro es hes
      rcases List.mem_cons.1 hes with rfl | hes
      · exact ⟨log, rfl, hids ▸ hdealt⟩
      · exact hall es hes

/-- Let modules of different ids, some of which get a slot, each persist its defaults when it is
handed no block. Whatever the storage holds, the first restart leaves intact blocks, and every later
one finds them intact, changes no byte and hands every module with a slot the block that it was
handed first, or that it wrote then if it was handed none, and every other one nothing. -/
theorem restarts_deal_what_was_established {later : List (List α)}
    (distinct : (modules.map Module.moduleId).Nodup)
    (persists : ∀ m ∈ modules, Module.PersistsDefaults m)
    (slotted : Layout.slots (Storage.capacity s.storage) (Module.sizes modules) ≠ [])
    (same : ∀ again ∈ later, SameModules modules again) :
    ∃ plan valid log s₁ map ess s₂,
      (observe (.restart modules)).run s = .ok (.laidOut plan valid :: log, s₁) ∧
      (∃ s', intact.run s₁ = .ok (true, s')) ∧
      map.Fits plan ∧ Established modules valid log map ∧
      ((later.map StoreCommand.restart).mapM observe).run s₁ = .ok (ess, s₂) ∧
      s₂.bytes = s₁.bytes ∧ ∀ es ∈ ess, ∃ log', es = .laidOut plan true :: log' ∧
        handings log' = map.dealt (modules.map Module.moduleId) := by
  obtain ⟨plan, valid, log, s₁, front, back, map, hrun, hstores, hestablished, hready, laysOut⟩ :=
    first_restart distinct persists slotted
  obtain ⟨ess, s₂, hruns, hbytes, hall⟩ := hstores.restarts hready laysOut same
  obtain ⟨s', hintact, -⟩ := Holds.intact hstores
  rw [decide_eq_true rfl] at hintact
  exact ⟨plan, valid, log, s₁, map, ess, s₂, hrun, ⟨s', hintact⟩, hstores.fits, hestablished,
    hruns, hbytes, hall⟩

section Probes

open Bench

def threeProbes : List Probe := [firstProbe, { id := 11, size := 0 }, secondProbe]

theorem threeProbes_persist : ∀ m ∈ threeProbes, Module.PersistsDefaults m := by
  intro m hm
  simp only [threeProbes, List.mem_cons, List.not_mem_nil, or_false] at hm
  rcases hm with rfl | rfl | rfl
  · exact .inl (pairProbe_keepsBlock ..)
  · refine .inr ⟨rfl, ?_⟩
    intro block?
    cases block? <;> exact ⟨_, rfl⟩
  · exact .inl (pairProbe_keepsBlock ..)

def threeStarts : List StoreEvent :=
  [.handed 7 none, .wrote 7 [0xAA, 0xBB] (.ok ()), .handed 11 none, .handed 9 none,
    .wrote 9 [1, 2] (.ok ())]

theorem last_probe_is_dealt_its_defaults : ∃ ess s₂,
    (observe (.restart threeProbes)).run ({ storage := .erased 40 } : ConfigStore Memory) =
      .ok (.laidOut [(7, 2), (9, 2)] false :: threeStarts, afterFirstStart) ∧
    (([threeProbes, threeProbes].map StoreCommand.restart).mapM observe).run afterFirstStart =
      .ok (ess, s₂) ∧
    s₂.bytes = afterFirstStart.bytes ∧ ∀ es ∈ ess, (9, some [1, 2]) ∈ handings es := by
  have hrun : (observe (.restart threeProbes)).run
      ({ storage := .erased 40 } : ConfigStore Memory) =
        .ok (.laidOut [(7, 2), (9, 2)] false :: threeStarts, afterFirstStart) := by
    decide +kernel
  have hsame : ∀ again ∈ [threeProbes, threeProbes], SameModules threeProbes again := by
    intro again hagain
    obtain rfl : again = threeProbes := by simpa using hagain
    exact ⟨rfl, threeProbes_persist⟩
  obtain ⟨plan, valid, log, s₁, map, ess, s₂, hfirst, -, hfits, hestablished, hruns, hbytes,
    hall⟩ := restarts_deal_what_was_established
      (s := ({ storage := .erased 40 } : ConfigStore Memory)) (by decide) threeProbes_persist
      (by decide) hsame
  obtain ⟨hevents, rfl⟩ := Prod.mk.inj (Except.ok.inj (hrun.symm.trans hfirst))
  cases hevents
  refine ⟨ess, s₂, hrun, hruns, hbytes, ?_⟩
  intro es hes
  obtain ⟨log, rfl, hdealt⟩ := hall es hes
  obtain ⟨block, hblock, -⟩ := Option.map_eq_some_iff.1 (hfits 9)
  have hwrote : .wrote 9 block (.ok ()) ∈ threeStarts :=
    hestablished.written rfl secondProbe (by simp [threeProbes]) block hblock
  obtain rfl : block = [1, 2] := by simpa [threeStarts] using hwrote
  change (9, some [1, 2]) ∈ handings log
  rw [hdealt, ← hblock]
  exact List.mem_map_of_mem (by decide)

end Probes

end ConfigStore
end StarNet
