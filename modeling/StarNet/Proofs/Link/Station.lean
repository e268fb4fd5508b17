import StarNet.Proofs.Node.Sound

/-!
A node's end of a link. What the node sends goes out towards its peer, and what the peer sent comes
in, in order. Frames are numbered, which the nodes never see: a data frame by its place among the
node's own data transmissions, an acknowledgement by the number of the frame that it answers.
-/
namespace StarNet

structure Frame extends Transmission where
  number : Nat
  deriving DecidableEq

namespace Frame

def packet (f : Frame) : Packet := .ofMemory f.header f.payload.length.toUInt8 f.payload

def asks (f : Frame) : Bool := f.purpose == .data && f.header.wantsAck

/-- Between nodes that only queue packets under their own name, the header tells the purpose. -/
def Plain (f : Frame) : Prop :=
  match f.purpose with
  | .data => f.header.directed = false ∧ f.header.control = false
  | .ack => f.header.control = true ∧ f.header.wantsAck = false
  | .trace => f.header.control = false ∧ f.header.wantsAck = false

end Frame

def numbers (purpose : Purpose) (fs : List Frame) : List Nat :=
  (fs.filter (·.purpose == purpose)).map (·.number)

/-- `site` is everything around a node but the frames. -/
structure Station (E : Type) where
  site : E
  incoming : List Frame := []
  outgoing : List Frame := []
  handed : List Frame := []
  /-- All data transmissions so far. -/
  sent : List Transmission := []

namespace Station

variable {E : Type}

def answering (s : Station E) : Nat :=
  ((s.handed.filter Frame.asks).getLast?.map (·.number)).getD 0

def frame (s : Station E) (t : Transmission) : Frame where
  toTransmission := t
  number := match t.purpose with
    | .data => s.sent.length
    | .ack => s.answering
    | .trace => 0

def emit (s : Station E) (site : E) (t : Transmission) : Station E :=
  { s with
    site
    outgoing := s.outgoing ++ [s.frame t]
    sent := if t.purpose = .data then s.sent ++ [t] else s.sent }

instance [Medium E] : Medium (Station E) where
  enabled s := Medium.enabled s.site
  configure s identity mode := { s with site := Medium.configure s.site identity mode }
  canSend s :=
    let (free, site) := Medium.canSend s.site
    (free, { s with site })
  transmit s t := do return s.emit (← Medium.transmit s.site t) t
  receive s :=
    match s.incoming with
    | [] => (.nothing, s)
    | f :: rest => (.frame f.packet, { s with incoming := rest, handed := s.handed ++ [f] })
  noted s code := { s with site := Medium.noted s.site code }

instance [Clock E] : Clock (Station E) where
  now s :=
    let (time, site) := Clock.now s.site
    (time, { s with site })
  pause s := { s with site := Clock.pause s.site }

instance [SignalSource E] : SignalSource (Station E) where
  sample s :=
    let (signal, site) := SignalSource.sample s.site
    (signal, { s with site })

theorem transmit_eq [Medium E] {s s' : Station E} {t : Transmission}
    (h : Medium.transmit s t = .ok s') : ∃ site, s' = s.emit site t := by
  unfold Medium.transmit instMedium at h
  cases hw : Medium.transmit s.site t with
  | error => simp [hw, bind, Except.bind] at h
  | ok site =>
    simp only [hw, bind, Except.bind, pure, Except.pure, Except.ok.injEq] at h
    exact ⟨site, h.symm⟩

theorem receive_cases [Medium E] {s s' : Station E} {r : Reception}
    (h : Medium.receive s = (r, s')) : r = .nothing ∧ s' = s ∨
      ∃ f rest, s.incoming = f :: rest ∧ r = .frame f.packet ∧
        s' = { s with incoming := rest, handed := s.handed ++ [f] } := by
  unfold Medium.receive instMedium at h
  cases hi : s.incoming with
  | nil =>
    simp only [hi, Prod.mk.injEq] at h
    exact .inl ⟨h.1.symm, h.2.symm⟩
  | cons f rest =>
    simp only [hi, Prod.mk.injEq] at h
    exact .inr ⟨f, rest, rfl, h.1.symm, h.2.symm⟩

theorem receive_frame [Medium E] {s s' : Station E} {p : Packet}
    (h : Medium.receive s = (.frame p, s')) : ∃ f rest, s.incoming = f :: rest ∧ p = f.packet ∧
      s' = { s with incoming := rest, handed := s.handed ++ [f] } := by
  obtain ⟨hr, -⟩ | ⟨f, rest, hi, hp, hs⟩ := receive_cases h
  · cases hr
  · exact ⟨f, rest, hi, Reception.frame.inj hp, hs⟩

theorem receive_keeps [Medium E] {s s' : Station E} {r : Reception}
    (h : Medium.receive s = (r, s')) : s'.sent = s.sent ∧ s'.outgoing = s.outgoing := by
  obtain ⟨-, rfl⟩ | ⟨f, rest, -, -, rfl⟩ := receive_cases h <;> exact ⟨rfl, rfl⟩

end Station

/-- Frames of one node in the order in which they were sent. -/
structure Orderly (fs : List Frame) : Prop where
  plain : ∀ f ∈ fs, f.Plain
  data : (numbers .data fs).Pairwise (· < ·)
  acks : (numbers .ack fs).Pairwise (· < ·)

theorem Orderly.sublist {fs gs : List Frame} (h : Orderly fs) (hs : gs.Sublist fs) :
    Orderly gs where
  plain f hf := h.plain f (hs.subset hf)
  data := h.data.sublist ((hs.filter _).map _)
  acks := h.acks.sublist ((hs.filter _).map _)

theorem numbers_concat (purpose : Purpose) (fs : List Frame) (f : Frame) :
    numbers purpose (fs ++ [f]) =
      numbers purpose fs ++ if f.purpose = purpose then [f.number] else [] := by
  unfold numbers
  rw [List.filter_append, List.map_append]
  by_cases hp : f.purpose = purpose
  · simp [hp]
  · simp [hp]

theorem mem_numbers {purpose : Purpose} {fs : List Frame} {k : Nat} :
    k ∈ numbers purpose fs ↔ ∃ f ∈ fs, f.purpose = purpose ∧ f.number = k := by
  simp [numbers, and_assoc]

theorem pairwise_numbers_concat {purpose : Purpose} {fs : List Frame} {f : Frame}
    (h : (numbers purpose fs).Pairwise (· < ·))
    (hf : f.purpose = purpose → ∀ g ∈ fs, g.purpose = purpose → g.number < f.number) :
    (numbers purpose (fs ++ [f])).Pairwise (· < ·) := by
  rw [numbers_concat, List.pairwise_append]
  refine ⟨h, by split <;> simp, ?_⟩
  intro a ha b hb
  obtain ⟨g, hg, hgp, rfl⟩ := mem_numbers.1 ha
  by_cases hp : f.purpose = purpose
  · rw [if_pos hp, List.mem_singleton] at hb
    exact hb ▸ hf hp g hg hgp
  · simp [hp] at hb

theorem Orderly.concat {fs : List Frame} {f : Frame} (h : Orderly fs) (hp : f.Plain)
    (hd : f.purpose = .data → ∀ g ∈ fs, g.purpose = .data → g.number < f.number)
    (ha : f.purpose = .ack → ∀ g ∈ fs, g.purpose = .ack → g.number < f.number) :
    Orderly (fs ++ [f]) where
  plain g hg := by
    rcases List.mem_append.1 hg with hg | hg
    · exact h.plain g hg
    · exact List.mem_singleton.1 hg ▸ hp
  data := pairwise_numbers_concat h.data hd
  acks := pairwise_numbers_concat h.acks ha

theorem Orderly.lt_of_append {fs gs : List Frame} {f g : Frame} (h : Orderly (fs ++ gs))
    (hf : f ∈ fs) (hg : g ∈ gs) (hp : f.purpose = g.purpose) (ht : f.purpose ≠ .trace) :
    f.number < g.number := by
  have hlt (purpose : Purpose) (hw : (numbers purpose (fs ++ gs)).Pairwise (· < ·))
      (hfp : f.purpose = purpose) : f.number < g.number := by
    rw [numbers, List.filter_append, List.map_append, List.pairwise_append] at hw
    exact hw.2.2 _ (mem_numbers.2 ⟨f, hf, hfp, rfl⟩) _ (mem_numbers.2 ⟨g, hg, hp ▸ hfp, rfl⟩)
  cases hfp : f.purpose with
  | data => exact hlt .data h.data hfp
  | ack => exact hlt .ack h.acks hfp
  | trace => exact absurd hfp ht

theorem Frame.Plain.purpose_of_asking {f : Frame} (h : f.Plain) (hw : f.header.wantsAck = true) :
    f.purpose = .data := by
  unfold Frame.Plain at h
  split at h
  · assumption
  · simp [h.2] at hw
  · simp [h.2] at hw

theorem Frame.purpose_of_asks {f : Frame} (ha : f.asks = true) : f.purpose = .data := by
  simp [Frame.asks] at ha
  exact ha.1

theorem Frame.Plain.data {f : Frame} (h : f.Plain) (hd : f.purpose = .data) :
    f.header.directed = false ∧ f.header.control = false := by
  simpa only [Frame.Plain, hd] using h

theorem Frame.Plain.purpose_of_control {f : Frame} (h : f.Plain)
    (hc : f.header.control = true) : f.purpose = .ack := by
  unfold Frame.Plain at h
  split at h
  · simp [h.2] at hc
  · assumption
  · simp [h.1] at hc

theorem Frame.Plain.asks_iff {f : Frame} (h : f.Plain) :
    f.asks = true ↔ f.header.wantsAck = true := by
  constructor
  · intro ha
    simp [Frame.asks] at ha
    exact ha.2
  · intro hw
    simp [Frame.asks, hw, h.purpose_of_asking hw]

namespace Station

variable {E : Type} {s s' : Station E}

theorem answering_of_asks {f : Frame} (hh : s'.handed = s.handed ++ [f]) (ha : f.asks = true) :
    s'.answering = f.number := by
  simp [answering, hh, List.filter_append, ha]

theorem answering_of_other {f : Frame} (hh : s'.handed = s.handed ++ [f])
    (ha : f.asks = false) : s'.answering = s.answering := by
  simp [answering, hh, List.filter_append, ha]

/-- Once asked, a station answers a frame that was handed over. -/
theorem exists_answering {g : Frame} (hg : g ∈ s.handed) (ha : g.asks = true) :
    ∃ f ∈ s.handed, f.asks = true ∧ f.number = s.answering := by
  have hne : s.handed.filter Frame.asks ≠ [] :=
    List.ne_nil_of_mem (List.mem_filter.2 ⟨hg, ha⟩)
  have hlast := List.getLast_mem hne
  refine ⟨_, (List.mem_filter.1 hlast).1, (List.mem_filter.1 hlast).2, ?_⟩
  rw [answering, List.getLast?_eq_some_getLast hne]
  rfl

end Station

end StarNet
