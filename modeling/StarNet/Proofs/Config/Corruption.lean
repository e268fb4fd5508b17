import StarNet.Bench.Rack
import StarNet.Proofs.BitErrors
import StarNet.Proofs.Config.PersistentMap

/-!
Stored blocks of which some bits have flipped. Together with their checksum intact blocks have
checksum zero, and they are refused once the flips are such as a checksum finds.
-/
namespace StarNet

namespace ConfigStore

variable {S : Type} [Storage S] [Bytewise S] {s s' : ConfigStore S}

/-- The bytes that the check of the blocks covers: the blocks and behind them their checksum. -/
def region (s : ConfigStore S) : List UInt8 :=
  slice s.bytes Layout.base (Layout.blocksLength s.slots + Layout.checksumSize)

theorem intact_iff : (∃ t, intact.run s = .ok (true, t)) ↔
    s.fits = true ∧ checksum s.region = 0 := by
  obtain ⟨t, hrun, -⟩ := intact_yields s
  rw [hrun]
  constructor
  · rintro ⟨t', h⟩
    obtain ⟨hvalid, -⟩ := Prod.mk.inj (Except.ok.inj h)
    rwa [Bool.and_eq_true, beq_iff_eq] at hvalid
  · rintro ⟨hfits, hzero⟩
    refine ⟨t, ?_⟩
    rw [hfits, ← region, hzero]
    rfl

theorem length_region (h : s.fits = true) :
    s.region.length = Layout.blocksLength s.slots + Layout.checksumSize := by
  refine length_slice ?_
  rw [fits_iff, blocksEnd] at h
  omega

theorem Yields.not_intact (h : ¬ (s.fits = true ∧ checksum s.region = 0)) :
    Yields intact s false s.slots s.bytes := by
  obtain ⟨t, hrun, hslots, hbytes⟩ := intact_yields s
  refine ⟨t, ?_, hslots, hbytes⟩
  rw [hrun, ← region]
  have hvalid : (s.fits && checksum s.region == 0) = false := by
    rwa [← Bool.not_eq_true, Bool.and_eq_true, beq_iff_eq]
  rw [hvalid]

/-- A store of the same layout over bytes of which some are different now. -/
structure Altered (s s' : ConfigStore S) : Prop where
  slots : s'.slots = s.slots
  length : s'.bytes.length = s.bytes.length

theorem Altered.fits_eq (h : Altered s s') : s'.fits = s.fits := by
  rw [Bool.eq_iff_iff, fits_iff, fits_iff, blocksEnd, blocksEnd, h.slots, h.length]

theorem Altered.not_intact (h : Altered s s') (valid : ∃ t, intact.run s = .ok (true, t))
    (damaged : Detectable (flips s.region s'.region)) :
    Yields intact s' false s'.slots s'.bytes := by
  obtain ⟨hfits, hzero⟩ := intact_iff.1 valid
  have hlength : s.region.length = s'.region.length := by
    rw [length_region hfits, length_region (h.fits_eq.trans hfits), h.slots]
  exact .not_intact fun hvalid => damaged.checksum_ne_zero hlength hzero hvalid.2

theorem read_of_not_intact (h : Yields intact s false s.slots s.bytes) (id : UInt8)
    (buffer : List UInt8) : Yields (read id buffer) s (false, buffer) s.slots s.bytes := by
  refine .of_get ?_
  split
  · exact .pure _ rfl rfl
  · split
    · exact .pure _ rfl rfl
    · exact h.bind fun t hslots hbytes => .pure _ hslots hbytes

variable {α : Type} [Module α] {modules : List α}

/-- Configures every module as one that has no stored block. -/
def configureBare (modules : List α) : StoreM S (List α) :=
  modules.mapM fun m => persist (Module.configure m none)

omit [Bytewise S] in
theorem mapM_configure_refused :
    (modules.mapM (configure false) : StoreM S (List α)) = configureBare modules := by
  refine congrArg (modules.mapM ·) (funext fun m => funext fun t => ?_)
  exact configure_none (.inr rfl)

/-- Let the blocks of some modules be intact, and let a burst of at most sixteen bits of them and
their checksum flip, or any odd number of bits. Then every read is refused and leaves its buffer as
it is, and the next start with the same modules, whatever slots the new store has until then, finds
the blocks damaged and hands no module a block. Neither changes a byte by itself. -/
theorem detectable_damage_refused {stale : ConfigStore S}
    (laidOut : s.slots = Layout.slots (Storage.capacity s.storage) (Module.sizes modules))
    (valid : ∃ t, intact.run s = .ok (true, t)) (altered : Altered s s')
    (damaged : Detectable (flips s.region s'.region)) (sameStorage : stale.storage = s'.storage) :
    (∀ id buffer, Yields (read id buffer) s' (false, buffer) s'.slots s'.bytes) ∧
    ∃ t, t.slots = s'.slots ∧ t.bytes = s'.bytes ∧
      (init modules).run stale = (do return (false, ← configureBare modules)).run t := by
  have hrefused := altered.not_intact valid damaged
  refine ⟨read_of_not_intact hrefused, ?_⟩
  have hlaid : stale.laidOutFor modules = s' := by
    have hcapacity : Storage.capacity s'.storage = Storage.capacity s.storage := by
      rw [Bytewise.capacity_eq, Bytewise.capacity_eq]
      exact altered.length
    rw [laidOutFor, sameStorage, hcapacity, ← laidOut, ← altered.slots]
  obtain ⟨t, hrun, hslots, hbytes⟩ := hrefused
  refine ⟨t, hslots, hbytes, ?_⟩
  rw [init_run, hlaid, run_bind hrun, mapM_configure_refused]

section Memory

open Bench

/-- The same two blocks with three bits in a row flipped: the last one of the second block and the
first two of the checksum. -/
def twoBlocksStruck : ConfigStore Memory :=
  { twoBlocks with storage := ⟨List.replicate 32 0xFF ++ [7, 1, 0x82, 67, 80, 0xFF]⟩ }

theorem burst_across_checksum_refused :
    (∃ t, (read 9 [0, 0, 3]).run twoBlocksStruck = .ok ((false, [0, 0, 3]), t)) ∧
    ∃ t, t.bytes = twoBlocksStruck.bytes ∧
      (init [{ id := 5, size := 1 }, { id := 9, size := 2 }]).run
        ({ storage := twoBlocksStruck.storage } : ConfigStore Memory) =
      .ok ((false, [({ id := 5, size := 1, log := [.configured none []] } : Probe),
        { id := 9, size := 2, log := [.configured none []] }]), t) := by
  have hvalid : ∃ t, intact.run twoBlocks = .ok (true, t) :=
    intact_iff.2 ⟨by decide +kernel, by decide +kernel⟩
  have hflips : flips twoBlocks.region twoBlocksStruck.region =
      List.replicate 23 false ++ (List.replicate 3 true ++ List.replicate 14 false) := by
    decide +kernel
  have hburst : Burst (flips twoBlocks.region twoBlocksStruck.region) := by
    rw [hflips]
    refine ⟨by decide, 23, fun i hi => ?_⟩
    have hwindow : ∀ i < 40, (List.replicate 23 false ++ (List.replicate 3 true ++
        List.replicate 14 false))[i]? = some true → 23 ≤ i ∧ i < 39 := by decide
    exact hwindow i (List.getElem?_eq_some_iff.1 hi).1 hi
  obtain ⟨hread, t, -, hbytes, hinit⟩ := @detectable_damage_refused Memory _ _ twoBlocks
    twoBlocksStruck Probe _ [{ id := 5, size := 1 }, { id := 9, size := 2 }]
    { storage := twoBlocksStruck.storage } (by decide) hvalid ⟨rfl, rfl⟩ (.inl hburst) rfl
  obtain ⟨t', hrun, -⟩ := hread 9 [0, 0, 3]
  exact ⟨⟨t', hrun⟩, t, hbytes, hinit⟩

end Memory

end ConfigStore
end StarNet
