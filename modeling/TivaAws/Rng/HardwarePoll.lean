import Mathlib.Algebra.GroupWithZero.Nat
import TivaAws.Foundation.ByteMemory
import TivaAws.Rng.Random

/-!
# The hardware poll of the TLS library

`mbedtls_hardware_poll` adds its loop index to the entropy pool before it draws each seed, so the
polls themselves write the pool: after 63 groups nothing of what the application has added is left,
and every later output is known (`hardware_poll_iff`). Of each seed only the low byte is handed out,
four times.
-/

namespace TivaAws.Rng

open CircularBuffer ByteMemory

/-- The arguments of a call: the output buffer, its length and the value behind `oLen`. -/
structure PollCall where
  output : ByteMemory
  len : UInt32
  oLen : UInt32

/-- The groups of four bytes that a call writes. -/
def PollCall.groups (call : PollCall) : Nat := call.len.toNat / 4

/-- The variables of a call. -/
structure PollState where
  entropy : RandomEntropy
  output : ByteMemory
  oLen : UInt32

variable (seed : EntropyPool → UInt32)

/-- One round of the loop of `mbedtls_hardware_poll`. -/
def pollGroup (index : Nat) (s : PollState) : PollState :=
  let entropy := randomAddEntropy (UInt32.ofNat index) s.entropy
  let randomValue := seed entropy.pool
  -- `memset` stores the value as an `unsigned char`.
  { entropy
    oLen := s.oLen + 4
    output := s.output.writeBytes (index * 4) (List.replicate 4 randomValue.toUInt8) }

/-- The loop of `mbedtls_hardware_poll` for the first `groups` indices. -/
def pollLoop : Nat → PollState → PollState
  | 0, s => s
  | groups + 1, s => pollGroup seed groups (pollLoop groups s)

/-- `mbedtls_hardware_poll`, which always returns `0`, with `RandomSeed` as a parameter. -/
def mbedtlsHardwarePoll (call : PollCall) (e : RandomEntropy) : PollState :=
  pollLoop seed call.groups ⟨e, call.output, call.oLen⟩

/-- Polls one after the other. -/
def pollAll (calls : List PollCall) (e : RandomEntropy) : RandomEntropy :=
  calls.foldl (fun e call => (mbedtlsHardwarePoll seed call e).entropy) e

/-! ## What a poll does -/

/-- The groups that calls write. -/
def groupsWritten (calls : List PollCall) : Nat := (calls.map PollCall.groups).sum

/-- The bytes of the loop indices. -/
def indexBytes (groups : Nat) : List UInt8 := (List.range groups).map UInt8.ofNat

/-- The seed drawn for a group: from the pool with the indices up to the group added. -/
def seedDrawn (e : RandomEntropy) (group : Nat) : UInt32 :=
  seed (addBytes (indexBytes (group + 1)) e).pool

/-- The four bytes of a seed. -/
def seedBytes (value : UInt32) : List UInt8 :=
  [value.toUInt8, (value >>> 8).toUInt8, (value >>> 16).toUInt8, (value >>> 24).toUInt8]

/-- Every group that a call writes carries the whole seed drawn for it. -/
def CarriesSeeds (call : PollCall) (e : RandomEntropy) : Prop :=
  ∀ group < call.groups, List.Perm
    ((mbedtlsHardwarePoll seed call e).output.readBytes (group * 4) 4)
    (seedBytes (seedDrawn seed e group))

/-- `oLen` grows by the number of bytes written. -/
def CountsWritten (call : PollCall) (e : RandomEntropy) : Prop :=
  (mbedtlsHardwarePoll seed call e).oLen = call.oLen + UInt32.ofNat (call.groups * 4) ∧
    ∀ i, call.groups * 4 ≤ i → (mbedtlsHardwarePoll seed call e).output i = call.output i

/-- For some seed function, two choices of `count` bytes that are added before the polls make a
difference to the output of the call. -/
def DependsOnAdded (count : Nat) (calls : List PollCall) (call : PollCall) (e : RandomEntropy) :
    Prop :=
  ∃ seed bytes bytes', bytes.length = count ∧ bytes'.length = count ∧
    (mbedtlsHardwarePoll seed call (pollAll seed calls (addBytes bytes e))).output ≠
      (mbedtlsHardwarePoll seed call (pollAll seed calls (addBytes bytes' e))).output

variable {seed}

theorem buffer_inj {e e' : RandomEntropy} (h : e.buffer = e'.buffer) : e = e' := by
  cases e
  cases e'
  cases h
  rfl

/-- An index is added like its low byte. -/
theorem add_index (index : Nat) (e : RandomEntropy) :
    randomAddEntropy (UInt32.ofNat index) e = addBytes [UInt8.ofNat index] e := by
  refine buffer_inj ?_
  have hbyte : (UInt32.ofNat index).toUInt8 = UInt8.ofNat index := by
    apply UInt8.toNat_inj.mp
    rw [UInt32.toNat_toUInt8, UInt32.toNat_ofNat', UInt8.toNat_ofNat']
    exact Nat.mod_mod_of_dvd _ (by decide)
  rw [buffer_add, buffer_add_bytes, hbyte]
  rfl

theorem add_bytes_append (first second : List UInt8) (e : RandomEntropy) :
    addBytes (first ++ second) e = addBytes second (addBytes first e) :=
  List.foldl_append

theorem index_bytes_succ (groups : Nat) :
    indexBytes (groups + 1) = indexBytes groups ++ [UInt8.ofNat groups] := by
  rw [indexBytes, List.range_succ, List.map_append]
  rfl

theorem length_index_bytes (groups : Nat) : (indexBytes groups).length = groups := by
  rw [indexBytes, List.length_map, List.length_range]

/-- The loop adds its indices to the pool, whatever the seeds are. -/
theorem loop_entropy (groups : Nat) (s : PollState) :
    (pollLoop seed groups s).entropy = addBytes (indexBytes groups) s.entropy := by
  induction groups with
  | zero => rfl
  | succ groups ih =>
      show randomAddEntropy (UInt32.ofNat groups) (pollLoop seed groups s).entropy = _
      rw [ih, add_index, index_bytes_succ, add_bytes_append]

/-- A group is written once, with the low byte of its seed. -/
theorem loop_output (groups : Nat) (s : PollState) {group : Nat} (h : group < groups) :
    (pollLoop seed groups s).output.readBytes (group * 4) 4 =
      List.replicate 4 (seedDrawn seed s.entropy group).toUInt8 := by
  induction groups with
  | zero => exact absurd h (Nat.not_lt_zero _)
  | succ groups ih =>
      have hentropy : randomAddEntropy (UInt32.ofNat groups) (pollLoop seed groups s).entropy =
          addBytes (indexBytes (groups + 1)) s.entropy := @loop_entropy seed (groups + 1) s
      show readBytes (writeBytes _ (groups * 4) (List.replicate 4 (seed
        (randomAddEntropy (UInt32.ofNat groups) _).pool).toUInt8)) _ 4 = _
      rw [hentropy]
      by_cases hlast : group = groups
      · subst hlast
        exact readBytes_writeBytes _ _ (List.replicate 4 _)
      · rw [← ih (by omega)]
        refine readBytes_congr _ ?_
        intro i _ hi
        exact writeBytes_below _ (by omega)

theorem loop_outside (groups : Nat) (s : PollState) {i : Nat} (h : groups * 4 ≤ i) :
    (pollLoop seed groups s).output i = s.output i := by
  induction groups with
  | zero => rfl
  | succ groups ih =>
      rw [← ih (by omega)]
      exact writeBytes_above _ (by rw [List.length_replicate]; omega)

theorem loop_oLen (groups : Nat) (s : PollState) :
    (pollLoop seed groups s).oLen = s.oLen + UInt32.ofNat (groups * 4) := by
  induction groups with
  | zero => exact (UInt32.add_zero _).symm
  | succ groups ih =>
      show (pollLoop seed groups s).oLen + 4 = _
      rw [ih, Nat.succ_mul, UInt32.ofNat_add, UInt32.add_assoc]
      rfl

/-- Two polls with the same seeds write the same. -/
theorem poll_output_congr {call : PollCall} {e e' : RandomEntropy}
    (h : ∀ group < call.groups, seedDrawn seed e group = seedDrawn seed e' group) :
    (mbedtlsHardwarePoll seed call e).output = (mbedtlsHardwarePoll seed call e').output := by
  funext i
  by_cases hi : call.groups * 4 ≤ i
  · rw [mbedtlsHardwarePoll, mbedtlsHardwarePoll, loop_outside _ _ hi, loop_outside _ _ hi]
  · have hgroup : i / 4 < call.groups := by omega
    have hread := @loop_output seed _ ⟨e, call.output, call.oLen⟩ _ hgroup
    rw [h _ hgroup, ← @loop_output seed _ ⟨e', call.output, call.oLen⟩ _ hgroup] at hread
    have hbyte := eq_of_readBytes_eq hread (Nat.mod_lt i (by omega))
    rwa [Nat.div_add_mod'] at hbyte

/-- Polls add as many bytes to the pool as they write groups. -/
theorem poll_all_entropy (calls : List PollCall) :
    ∃ bytes : List UInt8, bytes.length = groupsWritten calls ∧
      ∀ seed e, pollAll seed calls e = addBytes bytes e := by
  induction calls with
  | nil => exact ⟨[], rfl, fun _ _ => rfl⟩
  | cons call rest ih =>
      obtain ⟨bytes, hlength, hrest⟩ := ih
      refine ⟨indexBytes call.groups ++ bytes, ?_, ?_⟩
      · rw [List.length_append, hlength, length_index_bytes]
        rfl
      · intro seed e
        rw [add_bytes_append, ← hrest seed,
          ← @loop_entropy seed _ ⟨e, call.output, call.oLen⟩]
        rfl

/-- After 63 groups no choice of the bytes added before makes a difference. -/
theorem poll_forgets {calls : List PollCall} (hmany : 63 ≤ groupsWritten calls) (call : PollCall)
    (e : RandomEntropy) {bytes bytes' : List UInt8} (hlength : bytes.length = bytes'.length) :
    (mbedtlsHardwarePoll seed call (pollAll seed calls (addBytes bytes e))).output =
      (mbedtlsHardwarePoll seed call (pollAll seed calls (addBytes bytes' e))).output := by
  obtain ⟨written, hwritten, hpolls⟩ := poll_all_entropy calls
  refine poll_output_congr ?_
  intro group _
  unfold seedDrawn
  rw [hpolls, hpolls]
  have hnext : (addBytes bytes e).buffer.next = (addBytes bytes' e).buffer.next := by
    rw [buffer_add_bytes, buffer_add_bytes, pushAll_next, pushAll_next, hlength]
  have hmore : 64 ≤ (written ++ indexBytes (group + 1)).length := by
    rw [List.length_append, length_index_bytes]
    omega
  have hforgets := pushAll_forgets (written ++ indexBytes (group + 1)) hmore hnext
  rw [← buffer_add_bytes, ← buffer_add_bytes, add_bytes_append, add_bytes_append] at hforgets
  rw [buffer_inj hforgets]

/-- After fewer groups the last byte added is still in the pool when the first seed is drawn. -/
theorem poll_depends {calls : List PollCall} (hfew : groupsWritten calls ≤ 62) {call : PollCall}
    (hcall : 0 < call.groups) (count : Nat) (e : RandomEntropy) :
    DependsOnAdded (count + 1) calls call e := by
  obtain ⟨written, hwritten, hpolls⟩ := poll_all_entropy calls
  generalize hcell : (addBytes (List.replicate count 0) e).buffer.next = cell
  -- The seed function tells whether the last byte is 1.
  generalize hseed :
    (fun pool : EntropyPool => if pool.get cell = 1 then (1 : UInt32) else 0) = seed
  have hfirst : ∀ last : UInt8, (mbedtlsHardwarePoll seed call (pollAll seed calls
      (addBytes (List.replicate count 0 ++ [last]) e))).output 0 =
        (if last = 1 then (1 : UInt32) else 0).toUInt8 := by
    intro last
    have hread := @loop_output seed _ ⟨pollAll seed calls
      (addBytes (List.replicate count 0 ++ [last]) e), call.output, call.oLen⟩ _ hcall
    have hkeeps : (addBytes (indexBytes 1) (pollAll seed calls
        (addBytes (List.replicate count 0 ++ [last]) e))).pool.get cell = last := by
      have hshort : (written ++ indexBytes 1).length < 64 := by
        rw [List.length_append, length_index_bytes]
        omega
      have hkept := @pushAll_keeps _ _ (addBytes (List.replicate count 0) e).buffer last _ hshort
      rw [hcell] at hkept
      rw [hpolls, ← add_bytes_append, add_bytes_append _ [last]]
      show (addBytes _ (addBytes [last] _)).buffer.cells.get cell = last
      rw [buffer_add_bytes, buffer_add_bytes]
      exact hkept
    have hdrawn : seedDrawn seed (pollAll seed calls
        (addBytes (List.replicate count 0 ++ [last]) e)) 0 = if last = 1 then 1 else 0 := by
      rw [seedDrawn, Nat.zero_add]
      generalize addBytes (indexBytes 1) _ = drawn at hkeeps ⊢
      rw [← hseed]
      show (if drawn.pool.get cell = 1 then (1 : UInt32) else 0) = _
      rw [hkeeps]
    simp only [hdrawn] at hread
    exact (List.cons.inj hread).1
  refine ⟨seed, List.replicate count 0 ++ [0], List.replicate count 0 ++ [1], by simp, by simp, ?_⟩
  intro hsame
  have hbytes := congrFun hsame 0
  rw [hfirst, hfirst] at hbytes
  exact absurd hbytes (by decide)

/-- The four bytes of a seed are equal. -/
def EqualBytes (value : UInt32) : Prop := ∀ byte ∈ seedBytes value, byte = value.toUInt8

instance (value : UInt32) : Decidable (EqualBytes value) :=
  List.decidableBAll (fun byte : UInt8 => byte = value.toUInt8) (seedBytes value)

/-- A group carries its seed exactly if the bytes of the seed are equal. -/
theorem carries_seeds_iff (call : PollCall) (e : RandomEntropy) :
    CarriesSeeds seed call e ↔ ∀ group < call.groups, EqualBytes (seedDrawn seed e group) := by
  refine forall₂_congr fun group hgroup => ?_
  have hread := @loop_output seed _ ⟨e, call.output, call.oLen⟩ _ hgroup
  rw [mbedtlsHardwarePoll, hread, List.perm_comm, List.perm_replicate,
    List.eq_replicate_iff]
  constructor
  · rintro ⟨-, hall⟩
    exact hall
  · exact fun hall => ⟨rfl, hall⟩

theorem counts_written (call : PollCall) (e : RandomEntropy) : CountsWritten seed call e :=
  ⟨loop_oLen _ _, fun _ hi => loop_outside _ _ hi⟩

/-- A poll depends on the bytes that the application has added exactly as long as no more than 62
groups have been written since, and its groups carry their seeds exactly if these have four equal
bytes. `oLen` always grows by the number of bytes written. -/
theorem hardware_poll_iff (seed : EntropyPool → UInt32) (added : List UInt8) (hadded : added ≠ [])
    (calls : List PollCall) (call : PollCall) (hcall : 4 ≤ call.len.toNat) (e : RandomEntropy) :
    let current := pollAll seed calls (addBytes added e)
    (DependsOnAdded added.length calls call e ∧ CarriesSeeds seed call current ∧
        CountsWritten seed call current ↔
      groupsWritten calls ≤ 62 ∧
        ∀ group < call.groups, EqualBytes (seedDrawn seed current group)) ∧
    (DependsOnAdded added.length calls call e ↔ groupsWritten calls ≤ 62) ∧
    CountsWritten seed call current := by
  intro current
  have hgroups : 0 < call.groups := Nat.div_pos hcall (by decide)
  have hdepends : DependsOnAdded added.length calls call e ↔ groupsWritten calls ≤ 62 := by
    constructor
    · rintro ⟨seed', bytes, bytes', hbytes, hbytes', hdiffer⟩
      by_contra hmany
      exact hdiffer (poll_forgets (by omega) call e (hbytes.trans hbytes'.symm))
    · intro hfew
      obtain ⟨count, hcount⟩ : ∃ count, added.length = count + 1 :=
        Nat.exists_eq_succ_of_ne_zero fun h => hadded (List.length_eq_zero_iff.mp h)
      rw [hcount]
      exact poll_depends hfew hgroups count e
  refine ⟨?_, hdepends, counts_written call current⟩
  rw [hdepends, carries_seeds_iff, and_iff_left (counts_written call current)]

/-- A poll of a number of bytes. -/
def pollOf (len : UInt32) : PollCall := ⟨fun _ => 0, len, 0⟩

/-- The byte added at start-up reaches a first poll. -/
theorem first_poll_depends : DependsOnAdded 1 [] (pollOf 128) .initial :=
  (hardware_poll_iff randomSeed [0x2C] (by decide) [] (pollOf 128) (by decide) .initial).2.1.mpr
    (by decide)

/-- Two polls of 128 bytes leave nothing of the byte added at start-up, and the first group of the
first poll does not carry its seed. -/
theorem third_poll_constant :
    ¬ DependsOnAdded 1 [pollOf 128, pollOf 128] (pollOf 128) .initial ∧
      ¬ CarriesSeeds randomSeed (pollOf 128) (addBytes [0x2C] .initial) := by
  constructor
  · rintro ⟨seed, bytes, bytes', hbytes, hbytes', hdiffer⟩
    exact hdiffer (poll_forgets (by decide) _ _ (hbytes.trans hbytes'.symm))
  · rw [carries_seeds_iff]
    intro hall
    exact absurd (hall 0 (by decide)) (by decide +kernel)

end TivaAws.Rng
