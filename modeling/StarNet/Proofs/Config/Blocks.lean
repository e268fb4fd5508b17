import Mathlib.Logic.Function.Basic
import StarNet.Proofs.Checksum
import StarNet.Proofs.Config.Bytes
import StarNet.Proofs.Config.Layout

/-!
The stored region as a map from module ids to blocks. Between bytes that no program of the store
touches lie the blocks of the plan, one after the other, and a checksum; a write replaces the front
of one block and the checksum, and nothing else.
-/
namespace StarNet

/-- The stored blocks by the modules that they belong to. -/
abbrev BlockMap := UInt8 → Option (List UInt8)

namespace BlockMap

variable {map map' : BlockMap} {plan before after : Plan} {id : UInt8} {block : List UInt8}

def joined (map : BlockMap) (plan : Plan) : List UInt8 := plan.flatMap fun e => (map e.1).getD []

/-- There is a block of the right size for every module of the plan, and no other block. -/
def Fits (map : BlockMap) (plan : Plan) : Prop :=
  ∀ id, (map id).map List.length = plan.lookup id

theorem joined_append : map.joined (before ++ after) = map.joined before ++ map.joined after :=
  List.flatMap_append

theorem joined_cons (e : UInt8 × Nat) :
    map.joined (e :: plan) = (map e.1).getD [] ++ map.joined plan := List.flatMap_cons

theorem joined_congr (h : ∀ e ∈ plan, map e.1 = map' e.1) : map.joined plan = map'.joined plan := by
  induction plan with
  | nil => rfl
  | cons e plan ih =>
    rw [joined_cons, joined_cons, h e List.mem_cons_self,
      ih fun e he => h e (List.mem_cons_of_mem _ he)]

theorem joined_update_of_notMem (h : id ∉ plan.map Prod.fst) (b : Option (List UInt8)) :
    joined (Function.update map id b) plan = map.joined plan := by
  refine joined_congr fun e he => Function.update_of_ne ?_ ..
  rintro rfl
  exact h (List.mem_map_of_mem he)

theorem length_joined (h : ∀ e ∈ plan, ((map e.1).getD []).length = e.2) :
    (map.joined plan).length = Layout.total plan := by
  induction plan with
  | nil => rfl
  | cons e plan ih =>
    rw [joined_cons, List.length_append, Layout.total, h e List.mem_cons_self,
      ih fun e he => h e (List.mem_cons_of_mem _ he)]

theorem lookup_of_mem (distinct : (plan.map Prod.fst).Nodup) {e : UInt8 × Nat} (he : e ∈ plan) :
    plan.lookup e.1 = some e.2 := by
  obtain ⟨before, after, rfl⟩ := List.append_of_mem he
  refine List.lookup_eq_some_iff.2 ⟨before, after, rfl, fun p hp => bne_iff_ne.2 fun heq => ?_⟩
  rw [List.map_append, List.nodup_append] at distinct
  exact distinct.2.2 p.1 (List.mem_map_of_mem hp) e.1 (List.mem_map_of_mem List.mem_cons_self)
    heq.symm

theorem Fits.length_getD (h : map.Fits plan) (distinct : (plan.map Prod.fst).Nodup)
    {e : UInt8 × Nat} (he : e ∈ plan) : ((map e.1).getD []).length = e.2 := by
  have hsize := h e.1
  rw [lookup_of_mem distinct he] at hsize
  obtain ⟨block, hblock, hlength⟩ := Option.map_eq_some_iff.1 hsize
  rw [hblock, Option.getD_some, hlength]

theorem Fits.eq_none_iff (h : map.Fits plan) : map id = none ↔ plan.lookup id = none := by
  rw [← h id, Option.map_eq_none_iff]

theorem Fits.split (h : map.Fits plan) (distinct : (plan.map Prod.fst).Nodup)
    (hblock : map id = some block) : ∃ before after,
      plan = before ++ (id, block.length) :: after ∧ id ∉ before.map Prod.fst ∧
      id ∉ after.map Prod.fst := by
  have hlookup := h id
  rw [hblock, Option.map_some, eq_comm, List.lookup_eq_some_iff] at hlookup
  obtain ⟨before, after, rfl, hbefore⟩ := hlookup
  refine ⟨before, after, rfl, ?_, ?_⟩
  · intro hmem
    obtain ⟨e, he, rfl⟩ := List.mem_map.1 hmem
    exact bne_iff_ne.1 (hbefore e he) rfl
  · rw [List.map_append, List.nodup_append, List.map_cons, List.nodup_cons] at distinct
    exact distinct.2.1.1

theorem Fits.update (h : map.Fits plan) (hblock : map id = some block) {block' : List UInt8}
    (hlength : block'.length = block.length) :
    Fits (Function.update map id (some block')) plan := by
  intro i
  by_cases hi : i = id
  · subst hi
    rw [Function.update_self, Option.map_some, hlength, ← h i, hblock, Option.map_some]
  · rw [Function.update_of_ne hi]
    exact h i

def Within (map map' : BlockMap) : Prop := ∀ id block, map id = some block → map' id = some block

theorem Within.update (h : map.Within map') (id : UInt8) (b : Option (List UInt8)) :
    Within (Function.update map id b) (Function.update map' id b) := by
  intro i block hblock
  by_cases hi : i = id
  · subst hi
    rwa [Function.update_self] at hblock ⊢
  · rw [Function.update_of_ne hi] at hblock ⊢
    exact h i block hblock

theorem exists_joined (distinct : (plan.map Prod.fst).Nodup) {content : List UInt8}
    (h : content.length = Layout.total plan) : ∃ map : BlockMap, map.Fits plan ∧
      map.joined plan = content := by
  induction plan generalizing content with
  | nil => exact ⟨fun _ => none, fun _ => rfl, (List.eq_nil_of_length_eq_zero h).symm⟩
  | cons e plan ih =>
    rw [Layout.total] at h
    rw [List.map_cons, List.nodup_cons] at distinct
    obtain ⟨map, hfits, hjoined⟩ := @ih distinct.2 (content.drop e.2)
      (by rw [List.length_drop]; omega)
    refine ⟨Function.update map e.1 (some (content.take e.2)), fun i => ?_, ?_⟩
    · by_cases hi : i = e.1
      · subst hi
        rw [Function.update_self, Option.map_some, List.length_take, Nat.min_eq_left (by omega)]
        exact List.lookup_cons_self.symm
      · rw [Function.update_of_ne hi, List.lookup_cons, beq_false_of_ne hi]
        exact hfits i
    · rw [joined_cons, joined_update_of_notMem distinct.1, hjoined, Function.update_self,
        Option.getD_some, List.take_append_drop]

end BlockMap

namespace ConfigStore

variable {S : Type} [Storage S] [Bytewise S] {s s' : ConfigStore S} {front back : List UInt8}
  {plan : Plan} {map : BlockMap} {sum : Checksum} {id : UInt8} {block data : List UInt8}

/-- The store has the slots of this plan, and its bytes are these blocks and this checksum between
bytes that belong to no block. -/
structure Holds (front back : List UInt8) (plan : Plan) (map : BlockMap) (sum : Checksum)
    (s : ConfigStore S) : Prop where
  slots : s.slots = Layout.place Layout.base plan
  distinct : (plan.map Prod.fst).Nodup
  fits : map.Fits plan
  length_front : front.length = Layout.base
  bytes : s.bytes = front ++ (map.joined plan ++ (sum.toBytes ++ back))

theorem Holds.congr (h : Holds front back plan map sum s) (hslots : s'.slots = s.slots)
    (hbytes : s'.bytes = s.bytes) : Holds front back plan map sum s' :=
  ⟨hslots.trans h.slots, h.distinct, h.fits, h.length_front, hbytes.trans h.bytes⟩

theorem Holds.length_joined (h : Holds front back plan map sum s) :
    (map.joined plan).length = Layout.total plan :=
  BlockMap.length_joined fun _ he => h.fits.length_getD h.distinct he

theorem Holds.blocksLength (h : Holds front back plan map sum s) :
    Layout.blocksLength s.slots = (map.joined plan).length := by
  rw [h.slots, Layout.blocksLength_place, h.length_joined]

theorem Holds.blocksEnd (h : Holds front back plan map sum s) :
    s.blocksEnd = (front ++ map.joined plan).length := by
  rw [ConfigStore.blocksEnd, h.blocksLength, ← h.length_front, List.length_append]

theorem Holds.end_le (h : Holds front back plan map sum s) :
    s.blocksEnd + Layout.checksumSize ≤ s.bytes.length := by
  rw [h.blocksEnd, h.bytes, ← List.append_assoc]
  exact le_length_append _ back (Nat.le_refl 2)

theorem Holds.length_bytes (h : Holds front back plan map sum s) : s.bytes.length =
    front.length + (Layout.total plan + (Layout.checksumSize + back.length)) := by
  rw [h.bytes, List.length_append, List.length_append, List.length_append, h.length_joined]
  rfl

theorem Holds.slot_none (h : Holds front back plan map sum s) (hid : map id = none) :
    s.slot? id = none := by
  rw [slot?, h.slots, Layout.find_place_of_lookup_none (h.fits.eq_none_iff.1 hid)]

theorem Holds.split (h : Holds front back plan map sum s) (hblock : map id = some block) :
    ∃ before after, plan = before ++ (id, block.length) :: after ∧
      id ∉ before.map Prod.fst ∧ id ∉ after.map Prod.fst ∧
      s.slot? id = some ⟨id, (front ++ map.joined before).length, block.length⟩ ∧
      s.bytes = (front ++ map.joined before) ++
        (block ++ (map.joined after ++ (sum.toBytes ++ back))) := by
  obtain ⟨before, after, rfl, hbefore, hafter⟩ := h.fits.split h.distinct hblock
  refine ⟨before, after, rfl, hbefore, hafter, ?_, ?_⟩
  · have hlength : (map.joined before).length = Layout.total before :=
      BlockMap.length_joined fun e he =>
        h.fits.length_getD h.distinct (List.mem_append_left _ he)
    rw [slot?, h.slots, Layout.find_place hbefore, List.length_append, h.length_front, hlength]
  · rw [h.bytes, BlockMap.joined_append, BlockMap.joined_cons, hblock]
    simp only [Option.getD_some, List.append_assoc]

theorem Holds.readBlock (h : Holds front back plan map sum s) (hblock : map id = some block) :
    ∃ slot, s.slot? id = some slot ∧ slot.size = block.length ∧
      Yields (readBytes slot.address slot.size) s block s.slots s.bytes := by
  obtain ⟨before, after, -, -, -, hslot, hbytes⟩ := h.split hblock
  refine ⟨_, hslot, rfl, ?_⟩
  have hread := @readBytes_yields S s _ _ (front ++ map.joined before).length block.length
    (hbytes ▸ le_length_append _ _ (Nat.le_refl _))
  rwa [hbytes, slice_append, ← hbytes] at hread

theorem Holds.writeBlock (h : Holds front back plan map sum s) (hblock : map id = some block)
    (hfit : data.length ≤ block.length) : ∃ slot s', s.slot? id = some slot ∧
      slot.size = block.length ∧ (writeBytes slot.address data).run s = .ok ((), s') ∧
      Holds front back plan (Function.update map id (some (data ++ block.drop data.length))) sum
        s' := by
  obtain ⟨before, after, hplan, hbefore, hafter, hslot, hbytes⟩ := h.split hblock
  obtain ⟨s', hrun, hslots, hbytes'⟩ := @writeBytes_yields S s _ _
    (front ++ map.joined before).length data (hbytes ▸ le_length_append _ _ hfit)
  refine ⟨_, s', hslot, rfl, hrun, hslots.trans h.slots, h.distinct, h.fits.update hblock ?_,
    h.length_front, ?_⟩
  · rw [List.length_append, List.length_drop]
    omega
  · rw [hbytes', hbytes, splice_append _ _ hfit, hplan, BlockMap.joined_append,
      BlockMap.joined_cons, BlockMap.joined_update_of_notMem hbefore,
      BlockMap.joined_update_of_notMem hafter, Function.update_self, Option.getD_some]
    simp only [List.append_assoc]

theorem Holds.intact (h : Holds front back plan map sum s) :
    Yields intact s (decide (sum = checksum (map.joined plan))) s.slots s.bytes := by
  have hyields := intact_yields s
  have hregion : slice s.bytes Layout.base (Layout.blocksLength s.slots + Layout.checksumSize) =
      map.joined plan ++ [sum.low, sum.high] := by
    have hlength : (map.joined plan ++ sum.toBytes).length =
        Layout.blocksLength s.slots + Layout.checksumSize := by
      rw [List.length_append, h.blocksLength]
      rfl
    rw [h.bytes, ← hlength, ← h.length_front, ← List.append_assoc (map.joined plan), slice_append]
    rfl
  rw [hregion, fits_iff.2 h.end_le, Bool.true_and] at hyields
  have hsum : (checksum (map.joined plan ++ [sum.low, sum.high]) == 0) =
      decide (sum = checksum (map.joined plan)) := by
    rw [Bool.beq_eq_decide_eq, decide_eq_decide, checksum_append_pair_eq_zero]
    exact ⟨Checksum.toBytes_inj.1, fun h => h ▸ rfl⟩
  rwa [hsum] at hyields

theorem Holds.renewChecksum (h : Holds front back plan map sum s) :
    ∃ s', renewChecksum.run s = .ok ((), s') ∧
      Holds front back plan map (checksum (map.joined plan)) s' := by
  obtain ⟨s', hrun, hslots, hbytes⟩ := renewChecksum_yields h.end_le
  have hregion : slice s.bytes Layout.base (Layout.blocksLength s.slots) = map.joined plan := by
    rw [h.bytes, h.blocksLength, ← h.length_front, slice_append]
  refine ⟨s', hrun, hslots.trans h.slots, h.distinct, h.fits, h.length_front, ?_⟩
  rw [hbytes, hregion, h.blocksEnd, h.bytes, ← List.append_assoc front,
    splice_append_of_length_eq _ _ (by rfl), List.append_assoc]

omit [Bytewise S] in
theorem write_of_slot_none (h : s.slot? id = none) :
    (write id data).run s = .ok (.error (.unknownModule id), s) := by
  rw [write, run_bind (a := s) rfl]
  simp only [h]
  rfl

theorem Holds.write_tooLarge (h : Holds front back plan map sum s) (hblock : map id = some block)
    (hlarge : block.length < data.length) :
    (write id data).run s = .ok (.error (.tooLarge id), s) := by
  obtain ⟨before, after, -, -, -, hslot, -⟩ := h.split hblock
  rw [write, run_bind (a := s) rfl]
  simp only [hslot, if_pos hlarge]
  rfl

theorem Holds.write_done (h : Holds front back plan map sum s) (hblock : map id = some block)
    (hfit : data.length ≤ block.length) {map' : BlockMap}
    (hmap : map' = Function.update map id (some (data ++ block.drop data.length))) :
    ∃ s', (write id data).run s = .ok (.ok (), s') ∧
      Holds front back plan map' (checksum (map'.joined plan)) s' := by
  obtain ⟨slot, s₁, hslot, hsize, hwrite, hholds⟩ := h.writeBlock hblock hfit
  rw [← hmap] at hholds
  obtain ⟨s₂, hrenew, hholds'⟩ := hholds.renewChecksum
  refine ⟨s₂, ?_, hholds'⟩
  rw [write, run_bind (a := s) rfl]
  simp only [hslot, hsize, if_neg (Nat.not_lt.2 hfit)]
  rw [run_bind hwrite, run_bind hrenew]
  rfl

def readAnswer (map : BlockMap) (valid : Bool) (id : UInt8) (buffer : List UInt8) :
    Bool × List UInt8 :=
  match map id with
  | none => (false, buffer)
  | some block =>
    if block.length ≤ buffer.length ∧ valid then (true, block ++ buffer.drop block.length)
    else (false, buffer)

theorem Holds.read (h : Holds front back plan map sum s) (id : UInt8) (buffer : List UInt8) :
    Yields (read id buffer) s
      (readAnswer map (decide (sum = checksum (map.joined plan))) id buffer) s.slots s.bytes := by
  refine .of_get ?_
  cases hblock : map id with
  | none =>
    simp only [h.slot_none hblock, readAnswer, hblock]
    exact .pure _ rfl rfl
  | some block =>
    obtain ⟨slot, hslot, hsize, -⟩ := h.readBlock hblock
    simp only [hslot, hsize, readAnswer, hblock]
    by_cases hfit : block.length ≤ buffer.length
    · rw [if_neg (Nat.not_lt.2 hfit)]
      refine h.intact.bind fun s₁ hslots hbytes => ?_
      by_cases hvalid : sum = checksum (map.joined plan)
      · obtain ⟨slot', hslot', -, hread⟩ := (h.congr hslots hbytes).readBlock hblock
        obtain rfl : slot = slot' := by
          rw [slot?, hslots, ← slot?, hslot] at hslot'
          exact Option.some.inj hslot'
        rw [decide_eq_true hvalid, if_pos rfl, if_pos ⟨hfit, rfl⟩]
        rw [hsize, hslots, hbytes] at hread
        exact hread.bind fun s₂ hslots₂ hbytes₂ => .pure _ hslots₂ hbytes₂
      · rw [decide_eq_false hvalid, if_neg Bool.false_ne_true,
          if_neg fun h => Bool.false_ne_true h.2]
        exact .pure _ hslots hbytes
    · rw [if_pos (Nat.not_le.1 hfit), if_neg fun h => hfit h.1]
      exact .pure _ rfl rfl

section Configure

variable {α : Type} [Module α] {module : α}

omit [Bytewise S] in
theorem configure_none {valid : Bool}
    (h : s.slot? (Module.moduleId module) = none ∨ valid = false) :
    (configure valid module).run s = (persist (Module.configure module none)).run s := by
  rw [configure, run_bind (a := s) rfl]
  cases hslot : s.slot? (Module.moduleId module) with
  | none => rfl
  | some slot =>
    rw [hslot] at h
    obtain rfl := h.resolve_left (Option.some_ne_none slot)
    rfl

theorem Holds.configure_some (h : Holds front back plan map sum s)
    (hblock : map (Module.moduleId module) = some block) : ∃ s', s'.slots = s.slots ∧
      s'.bytes = s.bytes ∧ (configure true module).run s =
        (persist (Module.configure module (some block))).run s' := by
  obtain ⟨slot, hslot, -, s', hread, hslots, hbytes⟩ := h.readBlock hblock
  refine ⟨s', hslots, hbytes, ?_⟩
  rw [configure, run_bind (a := s) rfl]
  simp only [hslot, if_true]
  exact run_bind hread

end Configure

def blockMap (s : ConfigStore S) : BlockMap := fun id =>
  (s.slot? id).map fun slot => slice s.bytes slot.address slot.size

theorem Holds.blockMap (h : Holds front back plan map sum s) : s.blockMap = map := by
  funext id
  rw [ConfigStore.blockMap]
  cases hblock : map id with
  | none => rw [h.slot_none hblock, Option.map_none]
  | some block =>
    obtain ⟨before, after, -, -, -, hslot, hbytes⟩ := h.split hblock
    rw [hslot, hbytes, Option.map_some, slice_append]

/-- A store whose slots and checksum lie within its bytes holds what lies in the slots. -/
theorem exists_holds (hslots : s.slots = Layout.place Layout.base plan)
    (distinct : (plan.map Prod.fst).Nodup)
    (hend : s.blocksEnd + Layout.checksumSize ≤ s.bytes.length) : ∃ sum,
      Holds (s.bytes.take Layout.base) (s.bytes.drop (s.blocksEnd + Layout.checksumSize)) plan
        s.blockMap sum s := by
  have hblocksEnd : s.blocksEnd = Layout.base + Layout.total plan := by
    rw [blocksEnd, hslots, Layout.blocksLength_place]
  rw [hblocksEnd] at hend
  obtain ⟨map, hfits, hjoined⟩ := BlockMap.exists_joined distinct
    (@length_slice s.bytes Layout.base (Layout.total plan) (by omega))
  obtain ⟨sum, hsum⟩ := Checksum.exists_toBytes
    (@length_slice s.bytes (Layout.base + Layout.total plan) Layout.checksumSize hend)
  have hholds : Holds (s.bytes.take Layout.base)
      (s.bytes.drop (s.blocksEnd + Layout.checksumSize)) plan map sum s := by
    refine ⟨hslots, distinct, hfits, List.length_take_of_le (by omega), ?_⟩
    rw [hjoined, hsum, hblocksEnd, ← List.append_assoc (slice ..), slice_append_slice, slice,
      Nat.add_assoc, ← List.drop_drop, List.take_append_drop, List.take_append_drop]
  exact ⟨sum, hholds.blockMap ▸ hholds⟩

theorem holds_of_laidOut {blocks : List (UInt8 × Nat)} (distinct : (blocks.map Prod.fst).Nodup)
    (laidOut : s.slots = Layout.slots (Storage.capacity s.storage) blocks)
    (slotted : s.slots ≠ []) : ∃ sum, Holds (s.bytes.take Layout.base)
      (s.bytes.drop (s.blocksEnd + Layout.checksumSize)) (s.slots.map Slot.entry) s.blockMap sum
      s := by
  have hplace : s.slots = Layout.place Layout.base (s.slots.map Slot.entry) := by
    rw [laidOut]
    exact Layout.place_entries_slotsFrom.symm
  have hdistinct : ((s.slots.map Slot.entry).map Prod.fst).Nodup := by
    rw [laidOut]
    exact distinct.sublist (Layout.entries_slotsFrom_sublist.map Prod.fst)
  refine exists_holds hplace hdistinct ?_
  have hle := @Layout.end_slotsFrom_le (Storage.capacity s.storage) Layout.base Layout.maxModules
    blocks (by rwa [laidOut] at slotted)
  rwa [← Layout.slots, ← laidOut, Bytewise.capacity_eq] at hle

end ConfigStore
end StarNet
