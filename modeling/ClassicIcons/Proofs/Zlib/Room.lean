import ClassicIcons.Proofs.Zlib.Decoder
import ClassicIcons.Zlib.Stream

/-! How much room a stream needs.

No step takes back what has come out (`prefix_onto`). So a stream that ends, or stops,
with some bytes out never had others on the way, and any room that they fit into will do
(`run_of_size?`); what comes out into less room is their front (`prefix_outcome_of_le`).
How many bytes are wanted therefore makes no difference to what comes first, and
`inflater` can be relied on. -/
namespace ClassicIcons.Zlib

/-! ### Steps -/

theorem prefix_push (out : Array UInt8) (byte : UInt8) : out.toList <+: (out.push byte).toList := by
  rw [Array.toList_push]
  exact List.prefix_append _ _

theorem prefix_repeated (distance count : Nat) (out : Array UInt8) :
    out.toList <+: (repeated distance count out).toList := by
  induction count generalizing out with
  | zero => exact List.prefix_refl _
  | succ count ih => exact (prefix_push out _).trans (ih _)

/-- What has come out stays. -/
theorem prefix_onto (added : Addition) (out : Array UInt8) : out.toList <+: (added.onto out).toList := by
  cases added with
  | nothing => exact List.prefix_refl _
  | byte byte => exact prefix_push out byte
  | repetition distance count => exact prefix_repeated distance count out

/-! ### Runs -/

theorem run_none {room : Nat} {out : Array UInt8} (h : out.size ≤ room) (s : Source) :
    run room none out s = match checksum out s with
      | .ok _ => .complete out
      | .error fault => .stopped fault out := by
  rw [run]
  exact if_neg (Nat.not_lt.2 h)

theorem run_of_step {room : Nat} {phase : Phase} {out : Array UInt8} {s s' : Source}
    {phase' : Option Phase} {added : Addition} (h : out.size ≤ room)
    (hs : step phase s = .ok ((phase', added), s')) :
    run room (some phase) out s = run room phase' (added.onto out) s' := by
  rw [run]
  refine (if_neg (Nat.not_lt.2 h)).trans ?_
  simp only
  split
  · rename_i h'
    rw [hs] at h'
    cases h'
    rfl
  · rename_i h'
    rw [hs] at h'
    cases h'

theorem run_of_fault {room : Nat} {phase : Phase} {out : Array UInt8} {s : Source} {fault : Fault}
    (h : out.size ≤ room) (hs : step phase s = .error fault) :
    run room (some phase) out s = .stopped fault out := by
  rw [run]
  refine (if_neg (Nat.not_lt.2 h)).trans ?_
  simp only
  split
  · rename_i h'
    rw [hs] at h'
    cases h'
  · rename_i h'
    rw [hs] at h'
    cases h'
    rfl

/-- What is out when decoding ends, or there is no more room. -/
def Outcome.out : Outcome → Array UInt8
  | complete out | full out | stopped _ out => out

/-- How many bytes are out when decoding ends, if there is room for them. -/
def Outcome.size? : Outcome → Option Nat
  | complete out | stopped _ out => some out.size
  | full _ => none

theorem Outcome.size_out {o : Outcome} {final : Nat} (h : o.size? = some final) :
    o.out.size = final := by
  cases o with
  | complete out | stopped fault out => exact Option.some.inj h
  | full out => cases h

/-- From any point of a run: what is out by then comes first. -/
theorem prefix_run (room : Nat) (phase : Option Phase) (out : Array UInt8) (s : Source) :
    out.toList <+: (run room phase out s).out.toList := by
  fun_induction run room phase out s with
  | case4 out s hroom phase phase' added s' hstep hless ih => exact (prefix_onto added out).trans ih
  | _ => exact List.prefix_refl _

/-- With room for what is out at its end, a run ends in the same way. -/
theorem run_of_size? {room : Nat} {phase : Option Phase} {out : Array UInt8} {s : Source}
    {final : Nat} (h : (run room phase out s).size? = some final) {room' : Nat} (hroom' : final ≤ room') :
    run room' phase out s = run room phase out s := by
  fun_induction run room phase out s with
  | case1 phase out s hroom => cases h
  | case2 out s hroom result hresult =>
    cases h
    rw [run_none hroom', hresult]
  | case3 out s hroom fault hfault =>
    cases h
    rw [run_none hroom', hfault]
  | case4 out s hroom phase phase' added s' hstep hless ih =>
    have hsize := ((prefix_onto added out).trans (prefix_run room phase' (added.onto out) s')).length_le
    rw [Array.length_toList, Array.length_toList, Outcome.size_out h] at hsize
    rw [run_of_step (Nat.le_trans hsize hroom') hstep]
    exact ih h
  | case5 out s hroom phase fault hfault =>
    cases h
    rw [run_of_fault hroom' hfault]

/-- What comes out into less room is the front of what comes out into more. -/
theorem prefix_run_of_le {room room' : Nat} (hroom : room ≤ room') (phase : Option Phase)
    (out : Array UInt8) (s : Source) :
    (run room phase out s).out.toList <+: (run room' phase out s).out.toList := by
  fun_induction run room phase out s with
  | case1 phase out s hfull => exact prefix_run room' phase out s
  | case4 out s hsize phase phase' added s' hstep hless ih =>
    rw [run_of_step (Nat.le_trans (Nat.not_lt.1 hsize) hroom) hstep]
    exact ih
  | case2 | case3 | case5 => exact prefix_run room' _ _ _

theorem lt_of_run_full {room : Nat} {phase : Option Phase} {out out' : Array UInt8} {s : Source}
    (h : run room phase out s = .full out') : room < out'.size := by
  fun_induction run room phase out s with
  | case1 phase out s hfull => cases h; exact hfull
  | case4 out s hsize phase phase' added s' hstep hless ih => exact ih h
  | _ => cases h

/-! ### Streams -/

theorem outcome_of_size? {room : Nat} {b : Bytes} {final : Nat}
    (h : (outcome room b).size? = some final) {room' : Nat} (hroom' : final ≤ room') :
    outcome room' b = outcome room b := by
  unfold outcome at h ⊢
  split at h
  · exact run_of_size? h hroom'
  · rfl

theorem prefix_outcome_of_le {room room' : Nat} (hroom : room ≤ room') (b : Bytes) :
    (outcome room b).out.toList <+: (outcome room' b).out.toList := by
  unfold outcome
  split
  · exact prefix_run_of_le hroom _ _ _
  · exact List.prefix_refl _

theorem lt_of_outcome_full {room : Nat} {b : Bytes} {out : Array UInt8} (h : outcome room b = .full out) :
    room < out.size := by
  unfold outcome at h
  split at h
  · exact lt_of_run_full h
  · cases h

theorem le_windows (size : Nat) : size ≤ windows size := by
  unfold windows windowLength
  omega

/-- From a stream that ends, the same bytes come first into any room. -/
theorem read_of_complete {room : Nat} {b : Bytes} {out : Array UInt8} (h : outcome room b = .complete out)
    (most : Nat) : (outcome (windows most) b).read most = .ok (out.toList.take most) := by
  have hsize : (outcome room b).size? = some out.size := by rw [h]; rfl
  -- Where decoding ends in the windows, it ends as it does with room for everything.
  have hends : ∀ final, (outcome (windows most) b).size? = some final →
      outcome (windows most) b = .complete out := by
    intro final hfinal
    rw [← outcome_of_size? hfinal (Nat.le_max_left final out.size),
      outcome_of_size? hsize (Nat.le_max_right final out.size), h]
  cases hwindow : outcome (windows most) b with
  | complete out' | stopped fault out' =>
    rw [← hwindow, hends out'.size (by rw [hwindow]; rfl)]
    rfl
  | full out' =>
    have hprefix := prefix_outcome_of_le (Nat.le_max_right out.size (windows most)) b
    rw [hwindow, outcome_of_size? hsize (Nat.le_max_left out.size (windows most)), h] at hprefix
    obtain ⟨rest, hrest⟩ : out'.toList <+: out.toList := hprefix
    have hlong : most ≤ out'.toList.length :=
      Nat.le_trans (le_windows most) (Nat.le_of_lt (lt_of_outcome_full hwindow))
    rw [← hrest, List.take_append_of_le_length hlong]
    rfl

theorem Outcome.eq_take_of_read {o : Outcome} {most : Nat} {data : Bytes} (h : o.read most = .ok data) :
    data = o.out.toList.take most := by
  cases o with
  | complete out | full out =>
    cases h
    rfl
  | stopped fault out =>
    cases fault with
    | corrupt => cases h
    | incomplete =>
      rw [read] at h
      split at h
      · cases h
        rfl
      · cases h

/-- Fewer bytes than are wanted come out only at the end of a stream. -/
theorem Outcome.eq_complete_of_read {o : Outcome} {most : Nat} {data : Bytes} (h : o.read most = .ok data)
    (hlt : data.length < most) (hfull : ∀ out, o = .full out → most ≤ out.size) :
    o = .complete data.toArray := by
  have htake := eq_take_of_read h
  have hsize : o.out.size < most := by
    rw [htake, List.length_take, Array.length_toList] at hlt
    omega
  rw [List.take_of_length_le (by rw [Array.length_toList]; exact Nat.le_of_lt hsize)] at htake
  cases o with
  | complete out => rw [htake, Outcome.out, Array.toArray_toList]
  | full out => exact absurd (hfull out rfl) (Nat.not_le.2 hsize)
  | stopped fault out =>
    cases fault with
    | corrupt => cases h
    | incomplete =>
      have hshort : ¬most ≤ out.size := Nat.not_le.2 hsize
      rw [read, if_neg hshort] at h
      cases h

theorem Outcome.oneLine_of_read {o : Outcome} {most : Nat} {text : String}
    (h : o.read most = .error text) : Text.OneLine text := by
  cases o with
  | complete out | full out => cases h
  | stopped fault out =>
    cases fault with
    | corrupt =>
      cases h
      decide
    | incomplete =>
      rw [read] at h
      split at h
      · cases h
      · cases h
        decide

section
attribute [local instance] inflater

/-- **The bytes of a stream that ends come out, however many are wanted.** -/
theorem completes_of_outcome (room : Nat) {stream data : Bytes}
    (h : outcome room stream = .complete data.toArray) : Completes stream data :=
  read_of_complete h

instance : Decoder.Lawful where
  length_le h := by
    rw [Outcome.eq_take_of_read h, List.length_take]
    exact Nat.min_le_left _ _
  completes {most stream data} h hlt := by
    refine completes_of_outcome _ (Outcome.eq_complete_of_read h hlt fun out hout => ?_)
    exact Nat.le_trans (le_windows most) (Nat.le_of_lt (lt_of_outcome_full hout))
  oneLine h := Outcome.oneLine_of_read h

end

end ClassicIcons.Zlib
