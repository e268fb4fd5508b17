import StarNet.Proofs.Config.Boot

/-!
Damaged blocks after they were noticed. There is one checksum for all blocks, and every write that
succeeds renews it over whatever bytes the blocks have. So damage stays noticed as long as all
writes fail, and from the first one that succeeds the damaged block passes for an intact one.
-/
namespace StarNet

/-- The program of a module ends, and on the way writes nothing to the block of this id. -/
def Persist.Spares {α : Type} (id : UInt8) : Persist α → Prop
  | .done _ => True
  | .fail _ => False
  | .write i _ next => i ≠ id ∧ ∀ answer, (next answer).Spares id

variable {α : Type} [Module α]

def Module.Spares (id : UInt8) (module : α) : Prop :=
  ∀ block?, (Module.configure module block?).Spares id

/-- A command that writes nothing to the block of this id and keeps the layout of these blocks. -/
def StoreCommand.Spares (blocks : Plan) (id : UInt8) : StoreCommand α → Prop
  | .write i _ => i ≠ id
  | .read .. => True
  | .restart modules => Module.sizes modules = blocks ∧ ∀ m ∈ modules, Module.Spares id m

def Rewritten (events : List StoreEvent) : Prop := ∃ id data, .wrote id data (.ok ()) ∈ events

theorem rewritten_append {es es' : List StoreEvent} :
    Rewritten (es ++ es') ↔ Rewritten es ∨ Rewritten es' := by
  simp only [Rewritten, List.mem_append, exists_or]

theorem rewritten_wrote {id : UInt8} {data : List UInt8} {answer : Except StoreError Unit} :
    Rewritten [.wrote id data answer] ↔ answer = .ok () := by
  simp only [Rewritten, List.mem_singleton, StoreEvent.wrote.injEq]
  constructor
  · rintro ⟨-, -, -, -, rfl⟩
    rfl
  · rintro rfl
    exact ⟨id, data, rfl, rfl, rfl⟩

theorem rewritten_laidOut {plan : Plan} {valid : Bool} {es : List StoreEvent} :
    Rewritten (.laidOut plan valid :: es) ↔ Rewritten es := by
  simp only [Rewritten, List.mem_cons, reduceCtorEq, false_or]

namespace ConfigStore

variable {S : Type} [Storage S] [Bytewise S] {s : ConfigStore S} {front back : List UInt8}
  {plan : Plan} {map : BlockMap} {sum : Checksum} {victim : UInt8} {damaged : List UInt8}
  {es : List StoreEvent} {m : α} {modules : List α}

/-- What is left of the damage after these events. The damaged block is as it was, and the checksum
has become right exactly if some write has succeeded. -/
def HoldsDamaged (front back : List UInt8) (plan : Plan) (victim : UInt8) (damaged : List UInt8)
    (es : List StoreEvent) (s : ConfigStore S) : Prop :=
  ∃ map sum, Holds front back plan map sum s ∧ map victim = some damaged ∧
    (sum = checksum (map.joined plan) ↔ Rewritten es)

theorem HoldsDamaged.append {es' : List StoreEvent} {s' : ConfigStore S}
    (h : HoldsDamaged front back plan victim damaged es s) (hslots : s'.slots = s.slots)
    (hbytes : s'.bytes = s.bytes) (hfailed : ¬ Rewritten es') :
    HoldsDamaged front back plan victim damaged (es ++ es') s' := by
  obtain ⟨map, sum, hholds, hvictim, hsum⟩ := h
  refine ⟨map, sum, hholds.congr hslots hbytes, hvictim, ?_⟩
  rw [rewritten_append, hsum, or_iff_left hfailed]

theorem HoldsDamaged.of_write (h : HoldsDamaged front back plan victim damaged es s) {id : UInt8}
    (hid : id ≠ victim) (data : List UInt8) : ∃ answer s',
      (write id data).run s = .ok (answer, s') ∧
      HoldsDamaged front back plan victim damaged (es ++ [.wrote id data answer]) s' := by
  have hdamaged := h
  obtain ⟨map, sum, hholds, hvictim, -⟩ := hdamaged
  cases hblock : map id with
  | none =>
    refine ⟨_, s, write_of_slot_none (hholds.slot_none hblock), h.append rfl rfl ?_⟩
    exact fun hok => nomatch rewritten_wrote.1 hok
  | some block =>
    by_cases hfit : data.length ≤ block.length
    · obtain ⟨s', hrun, hholds'⟩ := hholds.write_done hblock hfit rfl
      refine ⟨_, s', hrun, _, _, hholds', ?_, ?_⟩
      · rw [Function.update_of_ne hid.symm, hvictim]
      · rw [rewritten_append, rewritten_wrote]
        exact ⟨fun _ => .inr rfl, fun _ => rfl⟩
    · refine ⟨_, s, hholds.write_tooLarge hblock (Nat.not_le.1 hfit), h.append rfl rfl ?_⟩
      exact fun hok => nomatch rewritten_wrote.1 hok

omit [Module α] in
theorem HoldsDamaged.of_persist {p : Persist α}
    (h : HoldsDamaged front back plan victim damaged es s) (spares : p.Spares victim)
    (log : List StoreEvent) :
    ∃ (o : Observed α) (s' : ConfigStore S) (es' : List StoreEvent),
      (persist (p.observed log)).run s = .ok (o, s') ∧ o.log = log ++ es' ∧ handings es' = [] ∧
      HoldsDamaged front back plan victim damaged (es ++ es') s' := by
  induction p generalizing es s log with
  | done a =>
    refine ⟨⟨a, log⟩, s, [], rfl, (List.append_nil log).symm, rfl, ?_⟩
    rwa [List.append_nil]
  | fail fault => exact spares.elim
  | write id data next ih =>
    obtain ⟨hid, hnext⟩ := spares
    obtain ⟨answer, s₁, hwrite, h₁⟩ := h.of_write hid data
    obtain ⟨o, s₂, es', hrest, hlog, hhandings, h₂⟩ :=
      ih answer h₁ (hnext answer) (log ++ [.wrote id data answer])
    refine ⟨o, s₂, .wrote id data answer :: es', ?_, ?_, hhandings, ?_⟩
    · rw [Persist.observed, persist, run_bind hwrite]
      exact hrest
    · rw [hlog, List.append_assoc]
      rfl
    · rwa [List.append_assoc] at h₂

theorem HoldsDamaged.of_configure (h : HoldsDamaged front back plan victim damaged es s)
    (spares : Module.Spares victim m) (valid : Bool) : ∃ (o : Observed α) (s' : ConfigStore S)
      (block? : Option (List UInt8)),
      (configure valid (Observed.fresh m)).run s = .ok (o, s') ∧
      HoldsDamaged front back plan victim damaged (es ++ o.log) s' ∧
      handings o.log = [(Module.moduleId m, block?)] ∧
      (valid = false → block? = none) ∧
      (valid = true → Module.moduleId m = victim → block? = some damaged) := by
  have hdamaged := h
  obtain ⟨map, sum, hholds, hvictim, -⟩ := hdamaged
  have hpersist : ∀ (block? : Option (List UInt8)) (s₁ : ConfigStore S), s₁.slots = s.slots →
      s₁.bytes = s.bytes → ∃ (o : Observed α) (s' : ConfigStore S),
        (persist (Module.configure (Observed.fresh m) block?)).run s₁ = .ok (o, s') ∧
        HoldsDamaged front back plan victim damaged (es ++ o.log) s' ∧
        handings o.log = [(Module.moduleId m, block?)] := by
    intro block? s₁ hslots hbytes
    have hhanded : ¬ Rewritten [.handed (Module.moduleId m) block?] := by simp [Rewritten]
    obtain ⟨o, s', es', hrun, hlog, hhandings, h'⟩ := (h.append hslots hbytes hhanded).of_persist
      (spares block?) [.handed (Module.moduleId m) block?]
    refine ⟨o, s', hrun, ?_, ?_⟩
    · rwa [hlog, ← List.append_assoc]
    · rw [hlog, handings_append, hhandings]
      rfl
  by_cases hdealt : s.slot? (Module.moduleId m) = none ∨ valid = false
  · obtain ⟨o, s', hrun, h', hhandings⟩ := hpersist none s rfl rfl
    have hconfigure : (configure valid (Observed.fresh m)).run s =
        (persist (Module.configure (Observed.fresh m) none)).run s := configure_none hdealt
    refine ⟨o, s', none, hconfigure.trans hrun, h', hhandings, fun _ => rfl, ?_⟩
    rintro hvalid rfl
    obtain ⟨slot, hslot, -⟩ := hholds.readBlock hvictim
    rw [hslot, hvalid] at hdealt
    simp at hdealt
  · obtain ⟨hslot, hvalid⟩ := not_or.1 hdealt
    obtain rfl := eq_true_of_ne_false hvalid
    cases hblock : map (Module.moduleId m) with
    | none => exact absurd (hholds.slot_none hblock) hslot
    | some block =>
      have hfresh : map (Module.moduleId (Observed.fresh m)) = some block := hblock
      obtain ⟨s₁, hslots, hbytes, hconfigure⟩ := hholds.configure_some hfresh
      obtain ⟨o, s', hrun, h', hhandings⟩ := hpersist (some block) s₁ hslots hbytes
      refine ⟨o, s', some block, hconfigure.trans hrun, h', hhandings, nofun, ?_⟩
      rintro - rfl
      exact hblock.symm.trans hvictim

theorem HoldsDamaged.of_configure_all (h : HoldsDamaged front back plan victim damaged es s)
    (spares : ∀ m ∈ modules, Module.Spares victim m) (valid : Bool) : ∃ os s',
      ((modules.map Observed.fresh).mapM (configure valid)).run s = .ok (os, s') ∧
      HoldsDamaged front back plan victim damaged (es ++ os.flatMap (·.log)) s' ∧
      (valid = false → ∀ id block?, (id, block?) ∈ handings (os.flatMap (·.log)) →
        block? = none) ∧
      (valid = true → victim ∈ modules.map Module.moduleId →
        (victim, some damaged) ∈ handings (os.flatMap (·.log))) := by
  induction modules generalizing es s with
  | nil =>
    refine ⟨[], s, rfl, ?_, nofun, nofun⟩
    rwa [List.flatMap_nil, List.append_nil]
  | cons m modules ih =>
    obtain ⟨o, s₁, block?, hfirst, h₁, hhandings, hnone, hsome⟩ :=
      h.of_configure (spares m List.mem_cons_self) valid
    obtain ⟨os, s₂, hrest, h₂, hrefused, hdealt⟩ :=
      ih h₁ fun m hm => spares m (List.mem_cons_of_mem _ hm)
    refine ⟨o :: os, s₂, mapM_configure_cons hfirst hrest, ?_, ?_, ?_⟩
    · rwa [List.flatMap_cons, ← List.append_assoc]
    · intro hvalid id block?' hmem
      rw [List.flatMap_cons, handings_append, hhandings] at hmem
      rcases List.mem_cons.1 hmem with heq | hmem
      · obtain ⟨-, rfl⟩ := Prod.mk.inj heq
        exact hnone hvalid
      · exact hrefused hvalid id block?' hmem
    · intro hvalid hmem
      rw [List.flatMap_cons, handings_append, hhandings]
      rcases List.mem_cons.1 hmem with rfl | hmem
      · rw [hsome hvalid rfl]
        exact List.mem_cons_self
      · exact List.mem_cons_of_mem _ (hdealt hvalid hmem)

theorem HoldsDamaged.of_restart (h : HoldsDamaged front back plan victim damaged es s)
    (laysOut : LaysOut front back (Module.sizes modules) plan)
    (spares : ∀ m ∈ modules, Module.Spares victim m) : ∃ log s',
      (observe (.restart modules)).run s = .ok (log, s') ∧
      HoldsDamaged front back plan victim damaged (es ++ log) s' ∧
      (¬ Rewritten es → ∀ id block?, (id, block?) ∈ handings log → block? = none) ∧
      (Rewritten es → victim ∈ modules.map Module.moduleId →
        (victim, some damaged) ∈ handings log) := by
  obtain ⟨map, sum, hholds, hvictim, hsum⟩ := h
  have hlaid := hholds.laidOutFor laysOut
  obtain ⟨s₁, hintact, hslots, hbytes⟩ := hlaid.intact
  have h₁ : HoldsDamaged front back plan victim damaged es s₁ :=
    ⟨map, sum, hlaid.congr hslots hbytes, hvictim, hsum⟩
  have hvalid : decide (sum = checksum (map.joined plan)) = true ↔ Rewritten es := by
    rw [decide_eq_true_iff, hsum]
  generalize decide (sum = checksum (map.joined plan)) = valid at hintact hvalid
  obtain ⟨os, s₂, hrun, ⟨map', sum', hholds', hvictim', hsum'⟩, hrefused, hdealt⟩ :=
    h₁.of_configure_all spares valid
  refine ⟨_, s₂, restart_run hintact hrun, ⟨map', sum', hholds', hvictim', ?_⟩, ?_, ?_⟩
  · rw [hsum', rewritten_append, rewritten_append, rewritten_laidOut]
  · intro hfailed
    exact hrefused (eq_false_of_ne_true fun hok => hfailed (hvalid.1 hok))
  · intro hrewritten
    exact hdealt (hvalid.2 hrewritten)

theorem HoldsDamaged.of_command (h : HoldsDamaged front back plan victim damaged es s)
    {blocks : Plan} (laysOut : LaysOut front back blocks plan) {command : StoreCommand α}
    (spares : command.Spares blocks victim) : ∃ log s', (observe command).run s = .ok (log, s') ∧
      HoldsDamaged front back plan victim damaged (es ++ log) s' := by
  cases command with
  | write id data =>
    obtain ⟨answer, s', hrun, h'⟩ := h.of_write spares data
    exact ⟨[.wrote id data answer], s', run_bind hrun, h'⟩
  | read id buffer =>
    obtain ⟨map, sum, hholds, hvictim, hsum⟩ := h
    obtain ⟨s', hrun, hslots, hbytes⟩ := hholds.read id buffer
    refine ⟨[], s', run_bind hrun, map, sum, hholds.congr hslots hbytes, hvictim, ?_⟩
    rwa [List.append_nil]
  | restart modules =>
    obtain ⟨hsizes, hmodules⟩ := spares
    obtain ⟨log, s', hrun, h', -⟩ := h.of_restart (hsizes ▸ laysOut) hmodules
    exact ⟨log, s', hrun, h'⟩

theorem HoldsDamaged.of_commands (h : HoldsDamaged front back plan victim damaged es s)
    {blocks : Plan} (laysOut : LaysOut front back blocks plan) {commands : List (StoreCommand α)}
    (spares : ∀ c ∈ commands, c.Spares blocks victim) : ∃ ess s',
      (commands.mapM observe).run s = .ok (ess, s') ∧
      HoldsDamaged front back plan victim damaged (es ++ ess.flatten) s' := by
  induction commands generalizing es s with
  | nil => exact ⟨[], s, rfl, by rwa [List.flatten_nil, List.append_nil]⟩
  | cons command commands ih =>
    obtain ⟨log, s₁, hfirst, h₁⟩ := h.of_command laysOut (spares command List.mem_cons_self)
    obtain ⟨ess, s₂, hrest, h₂⟩ := ih h₁ fun c hc => spares c (List.mem_cons_of_mem _ hc)
    refine ⟨log :: ess, s₂, ?_, ?_⟩
    · rw [List.mapM_cons, run_bind hfirst, run_bind hrest]
      rfl
    · rwa [List.flatten_cons, ← List.append_assoc]

theorem HoldsDamaged.blockMap (h : HoldsDamaged front back plan victim damaged es s) :
    s.blockMap victim = some damaged := by
  obtain ⟨map, sum, hholds, hvictim, -⟩ := h
  rw [hholds.blockMap, hvictim]

theorem Holds.read_intact (h : Holds front back plan map sum s) {id : UInt8}
    {block buffer : List UInt8} (hvalid : sum = checksum (map.joined plan))
    (hblock : map id = some block) (hfit : block.length ≤ buffer.length) : ∃ s',
      (ConfigStore.read id buffer).run s =
        .ok ((true, block ++ buffer.drop block.length), s') := by
  obtain ⟨s', hrun, -⟩ := h.read id buffer
  refine ⟨s', hrun.trans ?_⟩
  rw [decide_eq_true hvalid, readAnswer, hblock]
  simp only [hfit, and_self, if_true]

theorem HoldsDamaged.of_read (h : HoldsDamaged front back plan victim damaged es s) :
    (¬ Rewritten es → ∀ id buffer, ∃ s', (read id buffer).run s = .ok ((false, buffer), s')) ∧
    (Rewritten es → ∀ buffer, damaged.length ≤ buffer.length → ∃ s',
      (read victim buffer).run s = .ok ((true, damaged ++ buffer.drop damaged.length), s')) := by
  obtain ⟨map, sum, hholds, hvictim, hsum⟩ := h
  constructor
  · intro hfailed id buffer
    obtain ⟨s', hrun, -⟩ := hholds.read id buffer
    refine ⟨s', hrun.trans ?_⟩
    rw [decide_eq_false fun heq => hfailed (hsum.1 heq), readAnswer]
    cases map id with
    | none => rfl
    | some block => simp only [Bool.false_eq_true, and_false, if_false]
  · intro hrewritten buffer hfit
    exact hholds.read_intact (hsum.2 hrewritten) hvictim hfit

theorem HoldsDamaged.of_own_write (h : HoldsDamaged front back plan victim damaged es s)
    {data : List UInt8} (hdata : data.length ≤ damaged.length) : ∃ s',
      (write victim data).run s = .ok (.ok (), s') ∧
      ∀ buffer, damaged.length ≤ buffer.length → ∃ s'', (read victim buffer).run s' =
        .ok ((true, data ++ damaged.drop data.length ++ buffer.drop damaged.length), s'') := by
  obtain ⟨map, sum, hholds, hvictim, -⟩ := h
  obtain ⟨s', hrun, hholds'⟩ := hholds.write_done hvictim hdata rfl
  refine ⟨s', hrun, fun buffer hfit => ?_⟩
  have hlength : (data ++ damaged.drop data.length).length = damaged.length := by
    rw [List.length_append, List.length_drop, Nat.add_sub_cancel' hdata]
  rw [← hlength] at hfit ⊢
  exact hholds'.read_intact rfl (Function.update_self ..) hfit

omit [Bytewise S] in
theorem mem_of_slotted {slot : Slot}
    (laidOut : s.slots = Layout.slots (Storage.capacity s.storage) (Module.sizes modules))
    (hslot : s.slot? victim = some slot) : victim ∈ modules.map Module.moduleId := by
  rw [slot?] at hslot
  have hmem : slot ∈ s.slots := List.mem_of_find?_eq_some hslot
  have hid := List.find?_some hslot
  rw [laidOut] at hmem
  have hentry : slot.entry ∈ Module.sizes modules :=
    Layout.entries_slotsFrom_sublist.subset (List.mem_map_of_mem hmem)
  obtain ⟨m, hm, hsizes⟩ := List.mem_map.1 hentry
  exact List.mem_map.2 ⟨m, hm, (congrArg Prod.fst hsizes).trans (eq_of_beq hid)⟩

/-- Let the blocks of modules of different ids be damaged so that they are refused, and let the
store then be written, read and restarted with the same layout, but nothing be written for one of
the modules. Its block keeps the bytes it has. As long as no write succeeds, every read is refused
and a restart hands out nothing. Once one has succeeded, for whichever module, the block is read
and handed out with the bytes it has. A write for the module itself replaces what it covers of
them, and makes the block readable too. -/
theorem damage_noticed_until_next_write {commands : List (StoreCommand α)}
    (distinct : (modules.map Module.moduleId).Nodup)
    (laidOut : s.slots = Layout.slots (Storage.capacity s.storage) (Module.sizes modules))
    (stored : s.blockMap victim = some damaged) (refused : ∃ s', intact.run s = .ok (false, s'))
    (spared : ∀ c ∈ commands, c.Spares (Module.sizes modules) victim)
    (spares : ∀ m ∈ modules, Module.Spares victim m) : ∃ ess s' log s'',
      (commands.mapM observe).run s = .ok (ess, s') ∧ s'.blockMap victim = some damaged ∧
      (observe (.restart modules)).run s' = .ok (log, s'') ∧
      (¬ Rewritten ess.flatten →
        (∀ id buffer, ∃ t, (read id buffer).run s' = .ok ((false, buffer), t)) ∧
        ∀ id block?, (id, block?) ∈ handings log → block? = none) ∧
      (Rewritten ess.flatten →
        (∀ buffer, damaged.length ≤ buffer.length → ∃ t, (read victim buffer).run s' =
          .ok ((true, damaged ++ buffer.drop damaged.length), t)) ∧
        (victim, some damaged) ∈ handings log) ∧
      ∀ data, data.length ≤ damaged.length → ∃ t, (write victim data).run s' = .ok (.ok (), t) ∧
        ∀ buffer, damaged.length ≤ buffer.length → ∃ t', (read victim buffer).run t =
          .ok ((true, data ++ damaged.drop data.length ++ buffer.drop damaged.length), t') := by
  obtain ⟨slot, hslot, -⟩ := Option.map_eq_some_iff.1 stored
  have hnonempty : s.slots ≠ [] := List.ne_nil_of_mem (List.mem_of_find?_eq_some hslot)
  have hdistinct : ((Module.sizes modules).map Prod.fst).Nodup := by
    rwa [Module.sizes, List.map_map]
  obtain ⟨sum, hholds⟩ := holds_of_laidOut hdistinct laidOut hnonempty
  have hlaysOut := hholds.laysOut laidOut
  have hwrong : ¬ sum = checksum (s.blockMap.joined (s.slots.map Slot.entry)) := by
    obtain ⟨s₁, hrefused⟩ := refused
    obtain ⟨s₂, hintact, -⟩ := hholds.intact
    obtain ⟨hvalid, -⟩ := Prod.mk.inj (Except.ok.inj (hintact.symm.trans hrefused))
    exact of_decide_eq_false hvalid
  have hfailed : ¬ Rewritten [] := by
    rintro ⟨_, _, ⟨⟩⟩
  have hdamaged : HoldsDamaged _ _ _ victim damaged [] s :=
    ⟨s.blockMap, sum, hholds, stored, iff_of_false hwrong hfailed⟩
  obtain ⟨ess, s', hrun, h'⟩ := hdamaged.of_commands hlaysOut spared
  rw [List.nil_append] at h'
  obtain ⟨log, s'', hrestart, -, hnothing, hhanded⟩ := h'.of_restart hlaysOut spares
  refine ⟨ess, s', log, s'', hrun, h'.blockMap, hrestart, ?_, ?_, fun data => h'.of_own_write⟩
  · intro hfailed
    exact ⟨h'.of_read.1 hfailed, hnothing hfailed⟩
  · intro hrewritten
    exact ⟨h'.of_read.2 hrewritten, hhanded hrewritten (mem_of_slotted laidOut hslot)⟩

section Probes

open Bench

def silentProbes : List Probe := [{ id := 7, size := 2 }, { id := 9, size := 2 }]

def afterDamage : ConfigStore Memory :=
  twoPairs [⟨7, 32, 2⟩, ⟨9, 34, 2⟩] [0xAB, 0xBB, 1, 2, 0xD1, 0x88]

def afterOtherWrite : ConfigStore Memory :=
  twoPairs [⟨7, 32, 2⟩, ⟨9, 34, 2⟩] [0xAB, 0xBB, 3, 2, 0xD1, 0x14]

/-- A write that is refused leaves the damage noticed, and one for another module that succeeds
does not. -/
theorem damaged_pair_noticed_until_next_write : ∃ s' log s'',
    ([.write 9 [1, 2, 3], .restart silentProbes, .write 9 [3]].mapM observe).run afterDamage =
      .ok ([[.wrote 9 [1, 2, 3] (.error (.tooLarge 9))],
        [.laidOut [(7, 2), (9, 2)] false, .handed 7 none, .handed 9 none],
        [.wrote 9 [3] (.ok ())]], s') ∧
    (observe (.restart silentProbes)).run s' = .ok (log, s'') ∧
    (7, some [0xAB, 0xBB]) ∈ handings log := by
  have hspares : ∀ m ∈ silentProbes, Module.Spares 7 m := by
    intro m hm block?
    simp only [silentProbes, List.mem_cons, List.not_mem_nil, or_false] at hm
    rcases hm with rfl | rfl <;> cases block? <;> trivial
  have hspared : ∀ c ∈ [.write 9 [1, 2, 3], .restart silentProbes, .write 9 [3]],
      StoreCommand.Spares (Module.sizes silentProbes) 7 c := by
    intro c hc
    simp only [List.mem_cons, List.not_mem_nil, or_false] at hc
    rcases hc with rfl | rfl | rfl
    · exact (by decide : (9 : UInt8) ≠ 7)
    · exact ⟨rfl, hspares⟩
    · exact (by decide : (9 : UInt8) ≠ 7)
  have hruns : ([.write 9 [1, 2, 3], .restart silentProbes, .write 9 [3]].mapM observe).run
      afterDamage = .ok ([[.wrote 9 [1, 2, 3] (.error (.tooLarge 9))],
        [.laidOut [(7, 2), (9, 2)] false, .handed 7 none, .handed 9 none],
        [.wrote 9 [3] (.ok ())]], afterOtherWrite) := by
    decide +kernel
  have hrefused : intact.run afterDamage = .ok (false, afterDamage) := by decide +kernel
  have hstored : afterDamage.blockMap 7 = some [0xAB, 0xBB] := by decide
  obtain ⟨ess, s', log, s'', hrun, -, hrestart, -, hrewritten, -⟩ :=
    damage_noticed_until_next_write (by decide) (by decide) hstored ⟨afterDamage, hrefused⟩ hspared
      hspares
  obtain ⟨rfl, rfl⟩ := Prod.mk.inj (Except.ok.inj (hrun.symm.trans hruns))
  exact ⟨afterOtherWrite, log, s'', hruns, hrestart, (hrewritten ⟨9, [3], by decide⟩).2⟩

/-- An intact region, damage that is noticed, a write for the other module, and the damaged bytes
are read and handed out. -/
theorem damage_passes_after_other_write :
    intact.run afterFirstStart = .ok (true, afterFirstStart) ∧
    (read 7 [0, 0]).run afterDamage = .ok ((false, [0, 0]), afterDamage) ∧
    (observe (.restart silentProbes)).run afterDamage =
      .ok ([.laidOut [(7, 2), (9, 2)] false, .handed 7 none, .handed 9 none], afterDamage) ∧
    (write 9 [3]).run afterDamage = .ok (.ok (), afterOtherWrite) ∧
    (read 7 [0, 0]).run afterOtherWrite = .ok ((true, [0xAB, 0xBB]), afterOtherWrite) ∧
    (observe (.restart silentProbes)).run afterOtherWrite =
      .ok ([.laidOut [(7, 2), (9, 2)] true, .handed 7 (some [0xAB, 0xBB]),
        .handed 9 (some [3, 2])], afterOtherWrite) := by
  decide +kernel

end Probes

end ConfigStore
end StarNet
