import StarNet.Proofs.Config.Journal

/-!
What modules are handed over a history of writes and of restarts with ever other modules. As long
as a restart with another layout than the last one written finds the blocks damaged, a module is
handed what was last written for it, and nothing if the layout has changed. A layout that takes up
as many bytes as the one last written is not told from it.
-/
namespace StarNet

variable {α : Type} [Module α]

namespace ConfigStore

variable {S : Type} [Storage S] [Bytewise S] {s s' : ConfigStore S} {front back : List UInt8}
  {plan : Plan} {map : BlockMap} {sum : Checksum} {module : α} {block : List UInt8}
  {j : Journal} {es events : List StoreEvent}

omit [Bytewise S] in
theorem configure_unslotted (hkeeps : Module.KeepsBlock module)
    (h : s.slot? (Module.moduleId module) = none) (valid : Bool) :
    ∃ (o : Observed α) (data : List UInt8),
      (configure valid (Observed.fresh module)).run s = .ok (o, s) ∧
      o.log = defaultEvents (Module.moduleId module) data
        (.error (.unknownModule (Module.moduleId module))) := by
  obtain ⟨⟨data, next, -, hnone⟩, -⟩ := hkeeps
  refine ⟨⟨next (.error (.unknownModule (Module.moduleId module))), _⟩, data, ?_, rfl⟩
  have hrun := @configure_none S _ s (Observed α) _ (.fresh module) valid (.inl h)
  rw [hrun]
  simp only [Module.configure, hnone, Persist.observed, persist]
  exact run_bind (write_of_slot_none h)

theorem Holds.configure_handed (h : Holds front back plan map sum s)
    (hkeeps : Module.KeepsBlock module) (hblock : map (Module.moduleId module) = some block) :
    ∃ (o : Observed α) (s' : ConfigStore S),
      (configure true (Observed.fresh module)).run s = .ok (o, s') ∧ s'.slots = s.slots ∧
      s'.bytes = s.bytes ∧ o.log = [.handed (Module.moduleId module) (some block)] := by
  obtain ⟨-, hsome⟩ := hkeeps
  obtain ⟨module', hdone⟩ := hsome block
  obtain ⟨s', hslots, hbytes, hrun⟩ := @Holds.configure_some S _ _ s front back plan map sum block
    (Observed α) _ (.fresh module) h hblock
  refine ⟨⟨module', _⟩, s', ?_, hslots, hbytes, rfl⟩
  rw [hrun]
  simp only [Module.configure, hdone]
  rfl

theorem Holds.configure_default (h : Holds front back plan map sum s)
    (hkeeps : Module.KeepsBlock module) (hblock : map (Module.moduleId module) = some block)
    (hsize : block.length = Module.blockSize module) :
    ∃ (o : Observed α) (s' : ConfigStore S) (data : List UInt8) (map' : BlockMap),
      (configure false (Observed.fresh module)).run s = .ok (o, s') ∧
      data.length = block.length ∧
      o.log = defaultEvents (Module.moduleId module) data (.ok ()) ∧
      map' = Function.update map (Module.moduleId module) (some data) ∧
      Holds front back plan map' (checksum (map'.joined plan)) s' := by
  obtain ⟨⟨data, next, hlength, hnone⟩, -⟩ := hkeeps
  have hdata : data.length = block.length := hlength.trans hsize.symm
  have hmap : Function.update map (Module.moduleId module) (some data) = Function.update map
      (Module.moduleId module) (some (data ++ block.drop data.length)) := by
    rw [hdata, List.drop_length, List.append_nil]
  obtain ⟨s', hwrite, hholds⟩ := h.write_done hblock (Nat.le_of_eq hdata) hmap
  refine ⟨⟨next (.ok ()), _⟩, s', data, _, ?_, hdata, rfl, rfl, hholds⟩
  rw [configure_none (.inr rfl)]
  simp only [Module.configure, hnone, Persist.observed, persist]
  exact run_bind hwrite

omit [Bytewise S] in
theorem mapM_configure_cons {valid : Bool} {m : α} {modules : List α} {o : Observed α}
    {os : List (Observed α)} {s₁ s₂ : ConfigStore S}
    (hfirst : (configure valid (Observed.fresh m)).run s = .ok (o, s₁))
    (hrest : ((modules.map Observed.fresh).mapM (configure valid)).run s₁ = .ok (os, s₂)) :
    (((m :: modules).map Observed.fresh).mapM (configure valid)).run s = .ok (o :: os, s₂) := by
  rw [List.map_cons, List.mapM_cons, run_bind hfirst, run_bind hrest]
  rfl

omit [Bytewise S] in
theorem mapM_configure_keeps {I : List StoreEvent → ConfigStore S → Prop}
    {G : α → List StoreEvent → Prop} {valid : Bool} {modules : List α}
    (step : ∀ m ∈ modules, ∀ es s, I es s → ∃ o s', (configure valid (Observed.fresh m)).run s =
      .ok (o, s') ∧ I (es ++ o.log) s' ∧ G m o.log) (h : I es s) :
    ∃ os s', ((modules.map Observed.fresh).mapM (configure valid)).run s = .ok (os, s') ∧
      I (es ++ os.flatMap (·.log)) s' ∧ ∀ m ∈ modules, ∃ o ∈ os, G m o.log := by
  induction modules generalizing es s with
  | nil => exact ⟨[], s, rfl, by simpa using h, by simp⟩
  | cons m modules ih =>
    obtain ⟨o, s₁, hrun, hI, hG⟩ := step m List.mem_cons_self es s h
    obtain ⟨os, s₂, hrun', hI', hG'⟩ :=
      ih (fun m hm => step m (List.mem_cons_of_mem _ hm)) hI
    refine ⟨o :: os, s₂, mapM_configure_cons hrun hrun', ?_, ?_⟩
    · rwa [List.flatMap_cons, ← List.append_assoc]
    · intro m' hm'
      rcases List.mem_cons.1 hm' with rfl | hm'
      · exact ⟨o, List.mem_cons_self, hG⟩
      · obtain ⟨o', ho', hG'⟩ := hG' m' hm'
        exact ⟨o', List.mem_cons_of_mem _ ho', hG'⟩

theorem configure_idle {valid : Bool} (hkeeps : Module.KeepsBlock module) (h : s.slots = [] ∨
      valid = true ∧ ∃ front back plan sum, Holds front back plan map sum s) :
    ∃ (o : Observed α) (s' : ConfigStore S),
      (configure valid (Observed.fresh module)).run s = .ok (o, s') ∧ s'.slots = s.slots ∧
      s'.bytes = s.bytes ∧ ∀ e ∈ o.log, e.Idle map := by
  have unslotted (hslot : s.slot? (Module.moduleId module) = none) :
      ∃ (o : Observed α) (s' : ConfigStore S),
      (configure valid (Observed.fresh module)).run s = .ok (o, s') ∧ s'.slots = s.slots ∧
      s'.bytes = s.bytes ∧ ∀ e ∈ o.log, e.Idle map := by
    obtain ⟨o, data, hrun, hlog⟩ := configure_unslotted hkeeps hslot valid
    exact ⟨o, s, hrun, rfl, rfl, fun e he => idle_of_refused (hlog ▸ he)⟩
  rcases h with hnil | ⟨rfl, front, back, plan, sum, hholds⟩
  · exact unslotted (by rw [slot?, hnil]; rfl)
  · cases hblock : map (Module.moduleId module) with
    | none => exact unslotted (hholds.slot_none hblock)
    | some block =>
      obtain ⟨o, s', hrun, hslots, hbytes, hlog⟩ := hholds.configure_handed hkeeps hblock
      refine ⟨o, s', hrun, hslots, hbytes, fun e he => ?_⟩
      rw [hlog] at he
      rw [List.mem_singleton.1 he]
      exact hblock

/-- The modules configured so far were handed nothing, and those that have a slot wrote what is in
it now. -/
structure Renewed (front back : List UInt8) (plan : Plan) (j : Journal) (es : List StoreEvent)
    (s : ConfigStore S) : Prop where
  nothing : ∀ id block?, .handed id block? ∈ es → block? = none
  planned : (j.after es).plan = plan
  blocks : ∃ map sum, Holds front back plan map sum s ∧
    ∀ id block? block, .handed id block? ∈ es → map id = some block →
      (j.after es).left id = some block ∧ sum = checksum (map.joined plan) ∧
      (j.after es).written = plan

theorem Renewed.nothing_append {data : List UInt8} {answer : Except StoreError Unit} {id : UInt8}
    (h : Renewed front back plan j es s) (i : UInt8) (block? : Option (List UInt8))
    (hmem : .handed i block? ∈ es ++ defaultEvents id data answer) : block? = none := by
  rcases handed_mem_append.1 hmem with hes | ⟨-, hnone⟩
  · exact h.nothing i block? hes
  · exact hnone

theorem Renewed.unslotted {data : List UInt8} {error : StoreError} {id : UInt8}
    (h : Renewed front back plan j es s) (hid : plan.lookup id = none) :
    Renewed front back plan j (es ++ defaultEvents id data (.error error)) s := by
  obtain ⟨map, sum, hholds, hdone⟩ := h.blocks
  have hafter := j.after_refused es id data error
  refine ⟨h.nothing_append, hafter ▸ h.planned, map, sum, hholds, ?_⟩
  intro i block? block hmem hblock
  rw [hafter]
  rcases handed_mem_append.1 hmem with hes | ⟨rfl, -⟩
  · exact hdone i block? block hes hblock
  · rw [hholds.fits.eq_none_iff.2 hid] at hblock
    cases hblock

theorem Renewed.slotted {data : List UInt8} {id : UInt8} {map' : BlockMap}
    (h : Renewed front back plan j es s) (hholds : Holds front back plan map sum s)
    (hid : plan.lookup id = some data.length)
    (hmap : map' = Function.update map id (some data))
    (hholds' : Holds front back plan map' (checksum (map'.joined plan)) s') :
    Renewed front back plan j (es ++ defaultEvents id data (.ok ())) s' := by
  obtain ⟨map₀, sum₀, hholds₀, hdone⟩ := h.blocks
  obtain rfl : map₀ = map := hholds₀.blockMap.symm.trans hholds.blockMap
  have hafter := Journal.after_renewed h.planned hid
  refine ⟨h.nothing_append, by rw [hafter], map', _, hholds', ?_⟩
  intro i block? block hmem hblock
  rw [hafter]
  refine ⟨?_, rfl, rfl⟩
  change Function.update (j.after es).left id (some data) i = some block
  by_cases hi : i = id
  · subst hi
    rw [hmap, Function.update_self] at hblock
    rwa [Function.update_self]
  · rw [hmap, Function.update_of_ne hi] at hblock
    rw [Function.update_of_ne hi]
    rcases handed_mem_append.1 hmem with hes | ⟨heq, -⟩
    · exact (hdone i block? block hes hblock).1
    · exact absurd heq hi

theorem Renewed.configure (h : Renewed front back plan j es s) (hkeeps : Module.KeepsBlock module)
    (hsize : ∀ size, plan.lookup (Module.moduleId module) = some size →
      size = Module.blockSize module) : ∃ (o : Observed α) (s' : ConfigStore S),
    (configure false (Observed.fresh module)).run s = .ok (o, s') ∧
    Renewed front back plan j (es ++ o.log) s' ∧ .handed (Module.moduleId module) none ∈ o.log := by
  obtain ⟨map, sum, hholds, -⟩ := h.blocks
  cases hblock : map (Module.moduleId module) with
  | none =>
    obtain ⟨o, data, hrun, hlog⟩ := configure_unslotted hkeeps (hholds.slot_none hblock) false
    refine ⟨o, s, hrun, hlog ▸ h.unslotted (hholds.fits.eq_none_iff.1 hblock), ?_⟩
    rw [hlog]
    exact List.mem_cons_self
  | some old =>
    have hlookup := hholds.fits (Module.moduleId module)
    rw [hblock, Option.map_some, eq_comm] at hlookup
    obtain ⟨o, s', data, map', hrun, hdata, hlog, hmap, hholds'⟩ :=
      hholds.configure_default hkeeps hblock (hsize _ hlookup)
    refine ⟨o, s', hrun, hlog ▸ h.slotted hholds (hdata ▸ hlookup) hmap hholds', ?_⟩
    rw [hlog]
    exact List.mem_cons_self

theorem configure_all_idle {valid : Bool} {modules : List α}
    (hkeeps : ∀ m ∈ modules, Module.KeepsBlock m) (h : s.slots = [] ∨
      valid = true ∧ ∃ front back plan sum, Holds front back plan map sum s) :
    ∃ os s', ((modules.map Observed.fresh).mapM (configure valid)).run s = .ok (os, s') ∧
      s'.slots = s.slots ∧ s'.bytes = s.bytes ∧
      ∀ e ∈ os.flatMap (·.log), e.Idle map := by
  obtain ⟨os, s', hrun, ⟨hslots, hbytes, hlog⟩, -⟩ := @mapM_configure_keeps α _ S _ s []
    (fun es s' => s'.slots = s.slots ∧ s'.bytes = s.bytes ∧ ∀ e ∈ es, e.Idle map)
    (fun _ _ => True) valid modules (by
      intro m hm es s₁ ⟨hslots, hbytes, hes⟩
      have hstate : s₁.slots = [] ∨
          valid = true ∧ ∃ front back plan sum, Holds front back plan map sum s₁ := by
        rcases h with hnil | ⟨hvalid, front, back, plan, sum, hholds⟩
        · exact .inl (hslots.trans hnil)
        · exact .inr ⟨hvalid, front, back, plan, sum, hholds.congr hslots hbytes⟩
      obtain ⟨o, s₂, hrun, hslots₂, hbytes₂, ho⟩ := configure_idle (hkeeps m hm) hstate
      refine ⟨o, s₂, hrun, ⟨hslots₂.trans hslots, hbytes₂.trans hbytes, fun e he => ?_⟩, trivial⟩
      exact (List.mem_append.1 he).elim (hes e) (ho e)) ⟨rfl, rfl, by simp⟩
  exact ⟨os, s', hrun, hslots, hbytes, hlog⟩

theorem Holds.configure_all (h : Holds front back plan map sum s) (hplanned : j.plan = plan)
    {modules : List α} (hkeeps : ∀ m ∈ modules, Module.KeepsBlock m)
    (hsize : ∀ m ∈ modules, ∀ size, plan.lookup (Module.moduleId m) = some size →
      size = Module.blockSize m) :
    ∃ os s', ((modules.map Observed.fresh).mapM (configure false)).run s = .ok (os, s') ∧
      Renewed front back plan j (os.flatMap (·.log)) s' ∧
      ∀ m ∈ modules, .handed (Module.moduleId m) none ∈ os.flatMap (·.log) := by
  have hstart : Renewed front back plan j [] s :=
    ⟨by simp, hplanned, map, sum, h, by simp⟩
  obtain ⟨os, s', hrun, hrenewed, hall⟩ := @mapM_configure_keeps α _ S _ s []
    (Renewed front back plan j) (fun m log => .handed (Module.moduleId m) none ∈ log) false modules
    (fun m hm es s₁ h => h.configure (hkeeps m hm) (hsize m hm)) hstart
  refine ⟨os, s', hrun, hrenewed, fun m hm => ?_⟩
  obtain ⟨o, ho, hlog⟩ := hall m hm
  exact List.mem_flatMap.2 ⟨o, ho, hlog⟩

/-- The journal is what the storage holds: nothing yet, or the blocks of the layout last written. -/
inductive Kept (j : Journal) (s : ConfigStore S) : Prop
  | erased (n : Nat) (written : j.written = []) (slots : s.slots = [])
      (bytes : s.bytes = List.replicate n 0xFF)
  | written (front back : List UInt8) (map : BlockMap) (nonempty : j.written ≠ [])
      (slots : s.slots = [] ∨ s.slots = Layout.place Layout.base j.written)
      (stored : Stores front back j.written map
        { s with slots := Layout.place Layout.base j.written })
      (left : map.Within j.left)

/-- What is known of the store after some events. The journal is only to be trusted if every change
of layout was detected. -/
structure Tracked (events : List StoreEvent) (s : ConfigStore S) : Prop where
  laid : s.slots = [] ∨ ∃ front back plan map sum, Holds front back plan map sum s
  planned : (journal events).plan = s.slots.map Slot.entry
  kept : Detects events → Kept (journal events) s

/-- Modules are handed what the journal has for them, and nothing under a layout that it does not
have. -/
def Due (j : Journal) (es : List StoreEvent) : Prop :=
  (∀ id block, .handed id (some block) ∈ es → j.left id = some block) ∧
  ∀ plan valid, .laidOut plan valid ∈ es → plan ≠ j.written →
    ∀ id block?, .handed id block? ∈ es → block? = none

theorem journal_append (events es : List StoreEvent) :
    journal (events ++ es) = (journal events).after es := Journal.after_append ..

theorem Kept.congr (h : Kept j s) (hslots : s'.slots = s.slots) (hbytes : s'.bytes = s.bytes) :
    Kept j s' := by
  cases h with
  | erased n written slots bytes =>
    exact .erased n written (hslots.trans slots) (hbytes.trans bytes)
  | written front back map nonempty slots stored left =>
    exact .written front back map nonempty (hslots ▸ slots) (stored.congr rfl hbytes) left

theorem Kept.blockMap (h : Kept j s) (hslots : s.slots ≠ []) :
    s.slots = Layout.place Layout.base j.written ∧ s.blockMap.Within j.left := by
  cases h with
  | erased n written slots bytes => exact absurd slots hslots
  | written front back map nonempty slots stored left =>
    have hplace := slots.resolve_left hslots
    exact ⟨hplace, (stored.congr hplace rfl).blockMap ▸ left⟩

theorem Tracked.same (h : Tracked events s) (hslots : s'.slots = s.slots)
    (hbytes : s'.bytes = s.bytes) (hjournal : (journal events).after es = journal events) :
    Tracked (events ++ es) s' := by
  refine ⟨?_, ?_, fun hd => ?_⟩
  · rcases h.laid with hnil | ⟨front, back, plan, map, sum, hholds⟩
    · exact .inl (hslots.trans hnil)
    · exact .inr ⟨front, back, plan, map, sum, hholds.congr hslots hbytes⟩
  · rw [journal_append, hjournal, hslots, h.planned]
  · rw [journal_append, hjournal]
    exact (h.kept hd.of_append).congr hslots hbytes

theorem Tracked.of_write_done {id : UInt8} {data : List UInt8} (h : Tracked events s)
    (hholds : Holds front back plan map sum s) (hblock : map id = some block)
    (hfit : data.length ≤ block.length) {map' : BlockMap}
    (hmap : map' = Function.update map id (some (data ++ block.drop data.length)))
    (hholds' : Holds front back plan map' (checksum (map'.joined plan)) s') :
    Tracked (events ++ [.wrote id data (.ok ())]) s' := by
  have hplanned : (journal events).plan = plan := by
    rw [h.planned, hholds.slots, Layout.map_entry_place]
  have hlookup := hholds.fits id
  rw [hblock, Option.map_some, eq_comm] at hlookup
  have hslots : s.slots ≠ [] := by
    intro hnil
    obtain ⟨slot, hslot, -⟩ := hholds.readBlock hblock
    rw [slot?, hnil] at hslot
    cases hslot
  refine ⟨.inr ⟨_, _, _, _, _, hholds'⟩, ?_, fun hd => ?_⟩
  · rw [journal_append, hholds'.slots, Layout.map_entry_place, ← hplanned]
    rfl
  · obtain ⟨-, hleft⟩ := (h.kept hd.of_append).blockMap hslots
    rw [hholds.blockMap] at hleft
    rw [journal_append, Journal.after_write hplanned (hleft id block hblock) hlookup hfit]
    refine .written front back map' ?_ (.inr hholds'.slots) (hholds'.congr hholds'.slots.symm rfl)
      (hmap ▸ hleft.update id _)
    rintro rfl
    exact hslots hholds.slots

theorem Tracked.write (h : Tracked events s) (id : UInt8) (data : List UInt8) :
    ∃ es s', (observe (.write id data : StoreCommand α)).run s = .ok (es, s') ∧
      Tracked (events ++ es) s' := by
  have refused {error : StoreError}
      (hrun : (ConfigStore.write id data).run s = .ok (.error error, s)) :
      ∃ es s', (observe (.write id data : StoreCommand α)).run s = .ok (es, s') ∧
        Tracked (events ++ es) s' :=
    ⟨[.wrote id data (.error error)], s, run_bind hrun, h.same rfl rfl rfl⟩
  rcases h.laid with hnil | ⟨front, back, plan, map, sum, hholds⟩
  · exact refused (write_of_slot_none (by rw [slot?, hnil]; rfl))
  · cases hblock : map id with
    | none => exact refused (write_of_slot_none (hholds.slot_none hblock))
    | some block =>
      by_cases hfit : data.length ≤ block.length
      · obtain ⟨s', hrun, hholds'⟩ := hholds.write_done hblock hfit rfl
        exact ⟨[.wrote id data (.ok ())], s', run_bind hrun,
          h.of_write_done hholds hblock hfit rfl hholds'⟩
      · exact refused (hholds.write_tooLarge hblock (Nat.not_le.1 hfit))

theorem Tracked.read (h : Tracked events s) (id : UInt8) (buffer : List UInt8) :
    ∃ es s', (observe (.read id buffer : StoreCommand α)).run s = .ok (es, s') ∧
      Tracked (events ++ es) s' := by
  have hread : ∃ answer, Yields (ConfigStore.read id buffer) s answer s.slots s.bytes := by
    rcases h.laid with hnil | ⟨front, back, plan, map, sum, hholds⟩
    · refine ⟨(false, buffer), .of_get ?_⟩
      rw [slot?, hnil]
      exact .pure _ hnil rfl
    · exact ⟨_, hholds.read id buffer⟩
  obtain ⟨answer, s', hrun, hslots, hbytes⟩ := hread
  exact ⟨[], s', run_bind hrun, h.same hslots hbytes rfl⟩

omit [Bytewise S] in
theorem restart_run {modules : List α} {valid : Bool} {os : List (Observed α)}
    {s₁ s₂ : ConfigStore S} (hintact : intact.run (s.laidOutFor modules) = .ok (valid, s₁))
    (hconfigure : ((modules.map Observed.fresh).mapM (configure valid)).run s₁ = .ok (os, s₂)) :
    (observe (.restart modules)).run s =
      .ok (.laidOut (s₂.slots.map Slot.entry) valid :: os.flatMap (·.log), s₂) := by
  have hfresh : s.laidOutFor (modules.map Observed.fresh) = s.laidOutFor modules := by
    rw [laidOutFor, Module.sizes, List.map_map]
    rfl
  rw [← hfresh] at hintact
  rw [observe, run_restart_bind hintact, run_bind hconfigure]
  rfl

theorem erased_damaged {n : Nat} {blocks : List (UInt8 × Nat)}
    (herased : s.bytes = List.replicate n 0xFF)
    (hlaid : s.slots = Layout.slots (Storage.capacity s.storage) blocks) (hslots : s.slots ≠ [])
    {valid : Bool} (hintact : intact.run s = .ok (valid, s')) : valid = false := by
  obtain ⟨s'', hrun, -⟩ := intact_yields s
  obtain ⟨rfl, -⟩ := Prod.mk.inj (Except.ok.inj (hintact.symm.trans hrun))
  rw [hlaid] at hslots
  obtain ⟨hpos, hle⟩ := Layout.blocksLength_slotsFrom hslots
  have hend := Layout.end_slotsFrom_le hslots
  rw [← Layout.slots, ← hlaid] at hpos hle hend
  rw [Bytewise.capacity_eq, show Bytewise.bytes s.storage = s.bytes from rfl, herased,
    List.length_replicate] at hend
  simp only [Layout.maxModules, Layout.maxBlock] at hle
  have hslice : slice (List.replicate n (0xFF : UInt8)) Layout.base
      (Layout.blocksLength s.slots + Layout.checksumSize) =
      List.replicate (Layout.blocksLength s.slots + Layout.checksumSize) 0xFF := by
    rw [slice, List.drop_replicate, List.take_replicate, Nat.min_eq_left (by omega)]
  have hne := @checksum_erased_ne_zero (Layout.blocksLength s.slots + Layout.checksumSize)
    (by simp only [Layout.checksumSize]; omega) (by simp only [Layout.checksumSize]; omega)
  rw [herased, hslice, beq_false_of_ne hne, Bool.and_false]

theorem holds_laidOutFor {modules : List α}
    (distinct : ((Module.sizes modules).map Prod.fst).Nodup)
    (hslots : (s.laidOutFor modules).slots ≠ []) : ∃ front back plan sum,
      Holds front back plan (s.laidOutFor modules).blockMap sum (s.laidOutFor modules) := by
  obtain ⟨sum, hholds⟩ := holds_of_laidOut distinct rfl hslots
  exact ⟨_, _, _, sum, hholds⟩

theorem Kept.laidOutFor {modules : List α} (h : Kept j s)
    (distinct : ((Module.sizes modules).map Prod.fst).Nodup)
    (hslots : (s.laidOutFor modules).slots ≠ [])
    (hintact : ∃ s₁, intact.run (s.laidOutFor modules) = .ok (true, s₁))
    (hsame : j.written ≠ [] → (s.laidOutFor modules).slots.map Slot.entry = j.written) :
    (s.laidOutFor modules).slots.map Slot.entry = j.written ∧
      (s.laidOutFor modules).slots = Layout.place Layout.base j.written ∧
      (s.laidOutFor modules).blockMap.Within j.left := by
  cases h with
  | erased n written slots bytes =>
    obtain ⟨s₁, hrun⟩ := hintact
    cases erased_damaged (s := s.laidOutFor modules) bytes rfl hslots hrun
  | written front back map nonempty slots stored left =>
    obtain ⟨front', back', plan, sum, hholds⟩ := holds_laidOutFor distinct hslots
    have hentries := hsame nonempty
    obtain rfl : plan = j.written := by
      rw [← hentries, hholds.slots, Layout.map_entry_place]
    have hstored : Stores front back j.written map (s.laidOutFor modules) :=
      stored.congr hholds.slots rfl
    exact ⟨hentries, hholds.slots, hstored.blockMap ▸ left⟩

theorem Tracked.of_restart_idle {modules : List α} {valid : Bool} {log : List StoreEvent}
    (h : Tracked events s) (distinct : ((Module.sizes modules).map Prod.fst).Nodup)
    (hslots : s'.slots = (s.laidOutFor modules).slots) (hbytes : s'.bytes = s.bytes)
    (hintact : ∃ s₁, intact.run (s.laidOutFor modules) = .ok (valid, s₁))
    (hvalid : (s.laidOutFor modules).slots = [] ∨ valid = true)
    (hidle : ∀ e ∈ log, e.Idle (s.laidOutFor modules).blockMap) :
    Tracked (events ++ .laidOut (s'.slots.map Slot.entry) valid :: log) s' ∧
      (Detects (events ++ .laidOut (s'.slots.map Slot.entry) valid :: log) →
        Due (journal events) (.laidOut (s'.slots.map Slot.entry) valid :: log)) := by
  have hjournal : journal (events ++ .laidOut (s'.slots.map Slot.entry) valid :: log) =
      { journal events with plan := s'.slots.map Slot.entry } := by
    rw [journal_append]
    exact Journal.after_idle _ _ hidle
  have hkept (hd : Detects (events ++ .laidOut (s'.slots.map Slot.entry) valid :: log))
      (hne : (s.laidOutFor modules).slots ≠ []) :
      s'.slots.map Slot.entry = (journal events).written ∧
        s'.slots = Layout.place Layout.base (journal events).written ∧
        (s.laidOutFor modules).blockMap.Within (journal events).left := by
    obtain rfl := hvalid.resolve_left hne
    rw [hslots]
    refine (h.kept hd.of_append).laidOutFor distinct hne hintact fun hwritten => ?_
    rcases hd.next with hnil | hunwritten | hsame
    · rw [hslots, List.map_eq_nil_iff] at hnil
      exact absurd hnil hne
    · exact absurd hunwritten hwritten
    · rwa [hslots] at hsame
  have handed {id : UInt8} {block : List UInt8}
      (hmem : .handed id (some block) ∈ StoreEvent.laidOut (s'.slots.map Slot.entry) valid :: log) :
      (s.laidOutFor modules).blockMap id = some block ∧ (s.laidOutFor modules).slots ≠ [] := by
    rcases List.mem_cons.1 hmem with heq | hlog
    · cases heq
    · have hblock : (s.laidOutFor modules).blockMap id = some block := hidle _ hlog
      refine ⟨hblock, fun hnil => ?_⟩
      rw [blockMap, slot?, hnil] at hblock
      cases hblock
  refine ⟨⟨?_, ?_, fun hd => ?_⟩, fun hd => ⟨fun id block hmem => ?_, ?_⟩⟩
  · by_cases hne : (s.laidOutFor modules).slots = []
    · exact .inl (hslots.trans hne)
    · obtain ⟨front, back, plan, sum, hholds⟩ := holds_laidOutFor distinct hne
      exact .inr ⟨front, back, plan, _, sum, hholds.congr hslots hbytes⟩
  · rw [hjournal]
  · rw [hjournal]
    have hslots' : s'.slots = [] ∨
        s'.slots = Layout.place Layout.base (journal events).written := by
      by_cases hne : (s.laidOutFor modules).slots = []
      · exact .inl (hslots.trans hne)
      · exact .inr (hkept hd hne).2.1
    cases h.kept hd.of_append with
    | erased n written slots bytes =>
      rw [written] at hslots'
      exact .erased n written (hslots'.elim id id) (hbytes.trans bytes)
    | written front back map nonempty slots stored left =>
      exact .written front back map nonempty hslots' (stored.congr rfl hbytes) left
  · obtain ⟨hblock, hne⟩ := handed hmem
    exact (hkept hd hne).2.2 id block hblock
  · intro plan valid' hlaid hplan id block? hmem
    cases block? with
    | none => rfl
    | some block =>
      obtain ⟨-, hne⟩ := handed hmem
      rcases List.mem_cons.1 hlaid with heq | hlog
      · cases heq
        exact absurd (hkept hd hne).1 hplan
      · exact (hidle _ hlog).elim

theorem Tracked.of_restart_renewed {modules : List α} {log : List StoreEvent}
    (h : Renewed front back plan ((journal events).note (.laidOut plan false)) log s')
    (hplan : plan = (s.laidOutFor modules).slots.map Slot.entry) (hne : plan ≠ [])
    (hall : ∀ m ∈ modules, .handed (Module.moduleId m) none ∈ log) :
    Tracked (events ++ .laidOut plan false :: log) s' ∧
      Due (journal events) (.laidOut plan false :: log) := by
  obtain ⟨map, sum, hholds, hdone⟩ := h.blocks
  have hjournal : journal (events ++ .laidOut plan false :: log) =
      ((journal events).note (.laidOut plan false)).after log := journal_append ..
  have hentries : s'.slots.map Slot.entry = plan := by
    rw [hholds.slots, Layout.map_entry_place]
  have hhanded (e : UInt8 × Nat) (he : e ∈ plan) : .handed e.1 none ∈ log := by
    rw [hplan] at he
    obtain ⟨m, hm, rfl⟩ := List.mem_map.1 (Layout.entries_slotsFrom_sublist.subset he)
    exact hall m hm
  have hblocks (id : UInt8) (block : List UInt8) (hblock : map id = some block) :
      (((journal events).note (.laidOut plan false)).after log).left id = some block := by
    have hlookup := hholds.fits id
    rw [hblock, Option.map_some, eq_comm, List.lookup_eq_some_iff] at hlookup
    obtain ⟨before, after, hsplit, -⟩ := hlookup
    have hmem : (id, block.length) ∈ plan := by rw [hsplit]; simp
    exact (hdone id none block (hhanded _ hmem) hblock).1
  obtain ⟨e, rest, hcons⟩ := List.exists_cons_of_ne_nil hne
  have hmem : e ∈ plan := hcons ▸ List.mem_cons_self
  obtain ⟨block, hblock, -⟩ := Option.map_eq_some_iff.1
    ((hholds.fits e.1).trans (BlockMap.lookup_of_mem hholds.distinct hmem))
  obtain ⟨-, rfl, hwritten⟩ := hdone e.1 none block (hhanded e hmem) hblock
  refine ⟨⟨.inr ⟨_, _, _, _, _, hholds⟩, ?_, fun _ => ?_⟩, ?_, ?_⟩
  · rw [hjournal, h.planned, hentries]
  · rw [hjournal]
    refine .written front back map (hwritten.symm ▸ hne) (.inr (hwritten.symm ▸ hholds.slots)) ?_
      hblocks
    rw [hwritten]
    exact hholds.congr hholds.slots.symm rfl
  · intro id block hmem
    cases h.nothing id (some block) ((List.mem_cons.1 hmem).resolve_left StoreEvent.noConfusion)
  · intro _ _ _ _ id block? hmem
    exact h.nothing id block? ((List.mem_cons.1 hmem).resolve_left StoreEvent.noConfusion)

omit [Bytewise S] in
theorem size_of_lookup {modules : List α} {m : α}
    (distinct : ((Module.sizes modules).map Prod.fst).Nodup) (hm : m ∈ modules) {size : Nat}
    (h : ((s.laidOutFor modules).slots.map Slot.entry).lookup (Module.moduleId m) = some size) :
    size = Module.blockSize m := by
  obtain ⟨before, after, hsplit, -⟩ := List.lookup_eq_some_iff.1 h
  have hentry : (Module.moduleId m, size) ∈ Module.sizes modules := by
    refine Layout.entries_slotsFrom_sublist.subset (?_ : _ ∈ (s.laidOutFor modules).slots.map _)
    rw [hsplit]
    simp
  have hown := BlockMap.lookup_of_mem distinct (List.mem_map_of_mem hm)
  exact Option.some.inj ((BlockMap.lookup_of_mem distinct hentry).symm.trans hown)

theorem Tracked.restart (h : Tracked events s) {modules : List α}
    (horderly : StoreCommand.Orderly (.restart modules)) :
    ∃ es s', (observe (.restart modules)).run s = .ok (es, s') ∧ Tracked (events ++ es) s' ∧
      (Detects (events ++ es) → Due (journal events) es) := by
  obtain ⟨hdistinct, hkeeps⟩ := horderly
  have distinct : ((Module.sizes modules).map Prod.fst).Nodup := by
    rwa [Module.sizes, List.map_map]
  obtain ⟨valid, s₁, hintact, hslots₁, hbytes₁⟩ : ∃ valid, Yields intact (s.laidOutFor modules)
      valid (s.laidOutFor modules).slots (s.laidOutFor modules).bytes := ⟨_, intact_yields _⟩
  by_cases hidle : (s.laidOutFor modules).slots = [] ∨ valid = true
  · have hstate : s₁.slots = [] ∨ valid = true ∧ ∃ front back plan sum,
        Holds front back plan (s.laidOutFor modules).blockMap sum s₁ := by
      by_cases hnil : (s.laidOutFor modules).slots = []
      · exact .inl (hslots₁.trans hnil)
      · obtain ⟨front, back, plan, sum, hholds⟩ := holds_laidOutFor distinct hnil
        exact .inr ⟨hidle.resolve_left hnil, front, back, plan, sum,
          hholds.congr hslots₁ hbytes₁⟩
    obtain ⟨os, s₂, hrun, hslots₂, hbytes₂, hlog⟩ := configure_all_idle hkeeps hstate
    exact ⟨_, s₂, restart_run hintact hrun, h.of_restart_idle distinct (hslots₂.trans hslots₁)
      (hbytes₂.trans hbytes₁) ⟨s₁, hintact⟩ hidle hlog⟩
  · obtain ⟨hne, hdamaged⟩ := not_or.1 hidle
    obtain rfl := Bool.eq_false_iff.2 hdamaged
    obtain ⟨sum, hholds⟩ := holds_of_laidOut distinct rfl hne
    obtain ⟨os, s₂, hrun, hrenewed, hall⟩ := (hholds.congr hslots₁ hbytes₁).configure_all
      (j := (journal events).note
        (.laidOut ((s.laidOutFor modules).slots.map Slot.entry) false)) rfl hkeeps
      fun m hm size => size_of_lookup distinct hm
    obtain ⟨map, sum', hholds', -⟩ := hrenewed.blocks
    have hentries : s₂.slots.map Slot.entry = (s.laidOutFor modules).slots.map Slot.entry := by
      rw [hholds'.slots, Layout.map_entry_place]
    obtain ⟨htracked, hdue⟩ := Tracked.of_restart_renewed hrenewed rfl (by simpa using hne) hall
    refine ⟨_, s₂, restart_run hintact hrun, ?_, fun _ => ?_⟩
    · rwa [hentries]
    · rwa [hentries]

theorem Tracked.command (h : Tracked events s) {command : StoreCommand α}
    (horderly : command.Orderly) : ∃ es s', (observe command).run s = .ok (es, s') ∧
      Tracked (events ++ es) s' := by
  cases command with
  | write id data => exact h.write id data
  | read id buffer => exact h.read id buffer
  | restart modules =>
    obtain ⟨es, s', hrun, htracked, -⟩ := h.restart horderly
    exact ⟨es, s', hrun, htracked⟩

theorem Tracked.commands (h : Tracked events s) {history : List (StoreCommand α)}
    (horderly : ∀ c ∈ history, c.Orderly) : ∃ ess s',
      (history.mapM observe).run s = .ok (ess, s') ∧ Tracked (events ++ ess.flatten) s' := by
  induction history generalizing events s with
  | nil => exact ⟨[], s, rfl, by simpa using h⟩
  | cons c history ih =>
    obtain ⟨es, s₁, hrun, h₁⟩ := h.command (horderly c List.mem_cons_self)
    obtain ⟨ess, s₂, hrun', h₂⟩ := ih h₁ fun c hc => horderly c (List.mem_cons_of_mem _ hc)
    refine ⟨es :: ess, s₂, ?_, ?_⟩
    · rw [List.mapM_cons, run_bind hrun, run_bind hrun']
      rfl
    · rwa [List.flatten_cons, ← List.append_assoc]

/-- From erased storage on, let the store be written and read and be restarted with ever other
modules, each of which persists a block of its own if it is handed none. If no change of the layout
has gone unnoticed, a restart hands every module what the last successful write for it has left, or
nothing; and nothing to any module if the layout is not the one last written. -/
theorem handed_blocks_are_last_written {history : List (StoreCommand α)} {modules : List α}
    {n : Nat} (erased : s.bytes = List.replicate n 0xFF) (fresh : s.slots = [])
    (orderly : ∀ c ∈ history ++ [.restart modules], c.Orderly) :
    ∃ ess s₁ es s₂, (history.mapM observe).run s = .ok (ess, s₁) ∧
      (observe (.restart modules)).run s₁ = .ok (es, s₂) ∧
      (Detects (ess.flatten ++ es) →
        (∀ id block, .handed id (some block) ∈ es →
          (journal ess.flatten).left id = some block) ∧
        ∀ plan valid, .laidOut plan valid ∈ es → plan ≠ (journal ess.flatten).written →
          ∀ id block?, .handed id block? ∈ es → block? = none) := by
  have hstart : Tracked [] s := by
    refine ⟨.inl fresh, ?_, fun _ => .erased n rfl fresh erased⟩
    rw [fresh]
    rfl
  obtain ⟨ess, s₁, hrun, htracked⟩ := hstart.commands
    fun c hc => orderly c (List.mem_append_left _ hc)
  obtain ⟨es, s₂, hrun', -, hdue⟩ := htracked.restart
    (orderly _ (List.mem_append_right _ List.mem_cons_self))
  exact ⟨ess, s₁, es, s₂, hrun, hrun', hdue⟩

section Probes

open Bench

def pairProbe (id a b : UInt8) : Probe := { id, size := 2, onNone := [(id, [a, b])] }

def firstProbe : Probe := pairProbe 7 0xAA 0xBB

def secondProbe : Probe := pairProbe 9 1 2

theorem pairProbe_keepsBlock (id a b : UInt8) : Module.KeepsBlock (pairProbe id a b) :=
  ⟨⟨[a, b], _, rfl, rfl⟩, fun _ => ⟨_, rfl⟩⟩

theorem orderly_probes : StoreCommand.Orderly (.restart [firstProbe, secondProbe]) := by
  refine ⟨by decide, fun m hm => ?_⟩
  simp only [List.mem_cons, List.not_mem_nil, or_false] at hm
  rcases hm with rfl | rfl
  · exact pairProbe_keepsBlock ..
  · exact pairProbe_keepsBlock ..

def firstStart : List StoreEvent :=
  [.laidOut [(7, 2), (9, 2)] false, .handed 7 none, .wrote 7 [0xAA, 0xBB] (.ok ()),
    .handed 9 none, .wrote 9 [1, 2] (.ok ())]

def twoPairs (slots : List Slot) (region : List UInt8) : ConfigStore Memory where
  storage := ⟨List.replicate 32 0xFF ++ region ++ [0xFF, 0xFF]⟩
  slots := slots

def afterFirstStart : ConfigStore Memory :=
  twoPairs [⟨7, 32, 2⟩, ⟨9, 34, 2⟩] [0xAA, 0xBB, 1, 2, 0xD1, 0x88]

def afterWrite : ConfigStore Memory :=
  twoPairs [⟨7, 32, 2⟩, ⟨9, 34, 2⟩] [0xAA, 0xBB, 3, 2, 0xD0, 0xE8]

/-- After a write and a restart with the same modules, these are handed what was last written. -/
theorem blocks_of_two_probes_are_last_written :
    ([.restart [firstProbe, secondProbe], .write 9 [3]].mapM observe).run
      ({ storage := .erased 40 } : ConfigStore Memory) =
        .ok ([firstStart, [.wrote 9 [3] (.ok ())]], afterWrite) ∧
    (observe (.restart [firstProbe, secondProbe])).run afterWrite =
      .ok ([.laidOut [(7, 2), (9, 2)] true, .handed 7 (some [0xAA, 0xBB]),
        .handed 9 (some [3, 2])], afterWrite) ∧
    (journal (firstStart ++ [.wrote 9 [3] (.ok ())])).left 9 = some [3, 2] := by
  have horderly : ∀ c ∈ [.restart [firstProbe, secondProbe], .write 9 [3]] ++
      [.restart [firstProbe, secondProbe]], StoreCommand.Orderly c := by
    intro c hc
    simp only [List.cons_append, List.nil_append, List.mem_cons, List.not_mem_nil, or_false] at hc
    rcases hc with rfl | rfl | rfl
    · exact orderly_probes
    · trivial
    · exact orderly_probes
  obtain ⟨ess, s₁, es, s₂, hrun, hrun', hdue⟩ := @handed_blocks_are_last_written Probe _ Memory _ _
    { storage := .erased 40 } _ _ 40 rfl rfl horderly
  have hruns : ([.restart [firstProbe, secondProbe], .write 9 [3]].mapM observe).run
      ({ storage := .erased 40 } : ConfigStore Memory) =
        .ok ([firstStart, [.wrote 9 [3] (.ok ())]], afterWrite) := by
    decide +kernel
  obtain ⟨rfl, rfl⟩ := Prod.mk.inj (Except.ok.inj (hrun.symm.trans hruns))
  have hruns' : (observe (.restart [firstProbe, secondProbe])).run afterWrite =
      .ok ([.laidOut [(7, 2), (9, 2)] true, .handed 7 (some [0xAA, 0xBB]),
        .handed 9 (some [3, 2])], afterWrite) := by
    decide +kernel
  obtain ⟨rfl, rfl⟩ := Prod.mk.inj (Except.ok.inj (hrun'.symm.trans hruns'))
  exact ⟨hruns, hruns', (hdue (by decide)).1 9 [3, 2] (by decide)⟩

/-- The same two modules in the other order are handed each other's blocks. -/
theorem swapped_probes_are_mixed_up :
    ([.restart [firstProbe, secondProbe]].mapM observe).run
      ({ storage := .erased 40 } : ConfigStore Memory) = .ok ([firstStart], afterFirstStart) ∧
    (observe (.restart [secondProbe, firstProbe])).run afterFirstStart =
      .ok ([.laidOut [(9, 2), (7, 2)] true, .handed 9 (some [0xAA, 0xBB]),
        .handed 7 (some [1, 2])],
        twoPairs [⟨9, 32, 2⟩, ⟨7, 34, 2⟩] [0xAA, 0xBB, 1, 2, 0xD1, 0x88]) ∧
    (journal firstStart).written = [(7, 2), (9, 2)] ∧
    (journal firstStart).left 9 = some [1, 2] ∧
    (journal firstStart).left 7 = some [0xAA, 0xBB] := by
  decide +kernel

end Probes

end ConfigStore
end StarNet
