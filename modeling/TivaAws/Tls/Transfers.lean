import Mathlib.Algebra.GroupWithZero.Nat
import TivaAws.Tls.Context

/-!
# Bytes that are moved

What a caller of `TLS_Recv` and `TLS_Send` learns about the bytes that have been moved. The calls of
mbedTLS work on consecutive pieces of the caller's buffer. A call ends when the buffer is used up,
with the result zero, or with an error, which it returns even if bytes have been moved before it.
The want code of the other direction is taken for such an error, and for its own want code a call
waits as long as it takes. Without these the caller is told exactly what has been moved
(`transfers_faithful_iff`).
-/

namespace TivaAws.Tls

/-! ## How a call goes -/

/-- How the loop of a call ends. -/
inductive TransferEnd where
  /-- The buffer is used up. -/
  | complete
  /-- The last result is zero. -/
  | nothing
  /-- The last result is an error. -/
  | error (result : Int)
  /-- The call goes on waiting. -/
  | waiting
  deriving DecidableEq, Repr

/-- How the loop ends, with `done` bytes behind it. -/
def transferEnd (want : Int) (length : Nat) : List Int → Nat → TransferEnd
  | results, done =>
      if done < length then
        match results with
        | [] => .waiting
        | result :: rest =>
            if 0 < result then transferEnd want length rest (done + result.toNat)
            else if result = 0 then .nothing
            else if result ≠ want then .error result
            else transferEnd want length rest done
      else .complete

/-- The pieces of the buffer that are moved, each by its offset and its length. -/
def transferPieces (want : Int) (length : Nat) : List Int → Nat → List (Nat × Nat)
  | results, done =>
      if done < length then
        match results with
        | [] => []
        | result :: rest =>
            if 0 < result then
              (done, result.toNat) :: transferPieces want length rest (done + result.toNat)
            else if result = 0 then []
            else if result ≠ want then []
            else transferPieces want length rest done
      else []

/-- The number of bytes in some pieces. -/
def movedBytes (pieces : List (Nat × Nat)) : Nat := (pieces.map Prod.snd).sum

section Loop

variable {want : Int} {length : Nat}

/-- The pieces follow each other. -/
theorem pieces_consecutive (want : Int) (length : Nat) (results : List Int) (done : Nat) :
    (transferPieces want length results done).flatMap (fun piece => List.range' piece.1 piece.2) =
      List.range' done (movedBytes (transferPieces want length results done)) := by
  induction results generalizing done with
  | nil =>
      unfold transferPieces
      split_ifs <;> rfl
  | cons result rest ih =>
      unfold transferPieces
      simp only
      split_ifs
      · rw [List.flatMap_cons, ih]
        show List.range' done result.toNat ++ List.range' (done + result.toNat) _ =
          List.range' done (result.toNat + movedBytes _)
        rw [← List.range'_append_1]
      · rfl
      · rfl
      · exact ih done
      · rfl

/-- What the loop does, by the way it ends. -/
theorem transfer_loop_end (pCtx : TLSContext) (results : List Int) {done : Nat} {xResult : Int}
    (h : done < length ∨ 0 ≤ xResult) :
    match transferEnd want length results done with
    | .waiting => transferLoop want length pCtx results done xResult = none
    | .error result => result < 0 ∧ ∃ last,
        transferLoop want length pCtx results done xResult = some last ∧
          last.xResult = result ∧ last.pCtx = (prvFreeContext pCtx).1
    | .complete | .nothing => ∃ last,
        transferLoop want length pCtx results done xResult = some last ∧
          last.xResult = done + movedBytes (transferPieces want length results done) ∧
          last.pCtx = pCtx := by
  -- On the results that are left. Bytes that have been moved count only while no error comes.
  induction results generalizing done xResult with
  | nil =>
      unfold transferEnd transferPieces transferLoop
      by_cases hroom : done < length
      · rw [if_pos hroom, if_pos hroom]
      · rw [if_neg hroom, if_neg hroom, if_neg hroom, if_pos (h.resolve_left hroom)]
        exact ⟨_, rfl, rfl, rfl⟩
  | cons result rest ih =>
      unfold transferEnd transferPieces transferLoop
      by_cases hroom : done < length
      · rw [if_pos hroom, if_pos hroom, if_pos hroom]
        simp only
        by_cases hpositive : 0 < result
        · rw [if_pos hpositive, if_pos hpositive, if_pos hpositive]
          have hrest := @ih (done + result.toNat) result (Or.inr (Int.le_of_lt hpositive))
          split at hrest
          · rw [hrest]
            rfl
          · obtain ⟨hnegative, last, hloop, hresult, hcontext⟩ := hrest
            rw [hloop]
            exact ⟨hnegative, _, rfl, hresult, hcontext⟩
          · obtain ⟨last, hloop, hresult, hcontext⟩ := hrest
            rw [hloop]
            refine ⟨_, rfl, ?_, hcontext⟩
            show last.xResult = done + ((result.toNat + movedBytes _ : Nat) : Int)
            omega
          · obtain ⟨last, hloop, hresult, hcontext⟩ := hrest
            rw [hloop]
            refine ⟨_, rfl, ?_, hcontext⟩
            show last.xResult = done + ((result.toNat + movedBytes _ : Nat) : Int)
            omega
        · rw [if_neg hpositive, if_neg hpositive, if_neg hpositive]
          by_cases hzero : result = 0
          · rw [if_pos hzero, if_pos hzero, if_pos hzero]
            exact ⟨_, rfl, rfl, rfl⟩
          -- The own want code makes the loop go round, any other code ends it.
          · rw [if_neg hzero, if_neg hzero, if_neg hzero]
            by_cases hwant : result = want
            · rw [if_neg (not_not.mpr hwant), if_neg (not_not.mpr hwant),
                if_neg (not_not.mpr hwant)]
              have hrest := @ih done result (Or.inl hroom)
              split at hrest
              · rw [hrest]
                rfl
              · obtain ⟨hnegative, last, hloop, hresult, hcontext⟩ := hrest
                rw [hloop]
                exact ⟨hnegative, _, rfl, hresult, hcontext⟩
              · obtain ⟨last, hloop, hresult, hcontext⟩ := hrest
                rw [hloop]
                exact ⟨_, rfl, hresult, hcontext⟩
              · obtain ⟨last, hloop, hresult, hcontext⟩ := hrest
                rw [hloop]
                exact ⟨_, rfl, hresult, hcontext⟩
            · rw [if_pos hwant, if_pos hwant, if_pos hwant]
              exact ⟨by omega, _, rfl, rfl, rfl⟩
      · rw [if_neg hroom, if_neg hroom, if_neg hroom, if_pos (h.resolve_left hroom)]
        exact ⟨_, rfl, rfl, rfl⟩

/-- A call does not end with its own want code. -/
theorem transfer_end_ne_want (results : List Int) (done : Nat) :
    transferEnd want length results done ≠ .error want := by
  induction results generalizing done with
  | nil =>
      unfold transferEnd
      split_ifs <;> exact nofun
  | cons result rest ih =>
      unfold transferEnd
      simp only
      split_ifs with hroom hpositive hzero hwant
      · exact ih _
      · exact nofun
      · exact fun h => hwant (TransferEnd.error.inj h)
      · exact ih _
      · exact nofun

end Loop

/-! ## Calls -/

namespace TransferCall

/-- The code for which a call is repeated. -/
def want : TransferCall → Int
  | .recv _ _ => errSslWantRead
  | .send _ _ => errSslWantWrite

/-- The want code of the other direction. -/
def otherWant : TransferCall → Int
  | .recv _ _ => errSslWantWrite
  | .send _ _ => errSslWantRead

/-- The length of the caller's buffer. -/
def length : TransferCall → Nat
  | .recv xReadLength _ => xReadLength
  | .send xMsgLength _ => xMsgLength

/-- The results of the calls of mbedTLS. -/
def results : TransferCall → List Int
  | .recv _ results => results
  | .send _ results => results

/-- The pieces of the buffer that a call moves. -/
def pieces (call : TransferCall) (pCtx : TLSContext) : List (Nat × Nat) :=
  if pCtx.xMbedInitialized then transferPieces call.want call.length call.results 0 else []

/-- The number of bytes that a call moves. -/
def moved (call : TransferCall) (pCtx : TLSContext) : Nat := movedBytes (call.pieces pCtx)

theorem make_eq (call : TransferCall) (pCtx : TLSContext) :
    call.make pCtx = transfer call.want call.length call.results pCtx := by
  cases call <;> rfl

end TransferCall

/-- An error that is not a want code. -/
def IsHardError (result : Int) : Prop :=
  result < 0 ∧ result ≠ errSslWantRead ∧ result ≠ errSslWantWrite

/-- What the caller may expect of a call. -/
structure Faithful (pCtx : TLSContext) (call : TransferCall) : Prop where
  /-- The bytes at the beginning of the buffer are moved, each of them once and in order. -/
  consecutive : (call.pieces pCtx).flatMap (fun piece => List.range' piece.1 piece.2) =
    List.range (call.moved pCtx)
  /-- If any bytes are moved, their number is returned. -/
  exact : 0 < call.moved pCtx →
    ∃ last, call.make pCtx = some last ∧ last.xResult = call.moved pCtx
  /-- The context is invalidated only by a hard error. -/
  wants : ∀ last ∈ call.make pCtx, pCtx.xMbedInitialized = true →
    last.pCtx.xMbedInitialized = false → IsHardError last.xResult
  /-- An error invalidates the context. -/
  hard : ∀ last ∈ call.make pCtx, last.xResult < 0 → last.pCtx.xMbedInitialized = false
  /-- With an invalidated context the call fails and touches nothing but the context. -/
  dead : pCtx.xMbedInitialized = false → ∃ last, call.make pCtx = some last ∧
    last.xResult < 0 ∧ last.pCtx = pCtx ∧ last.actions = [.use .context]

/-- If an error ends the call, it is not the other want code and no bytes have been moved, and
neither have any if the call goes on waiting. -/
def TransferCall.Fits (pCtx : TLSContext) (call : TransferCall) : Prop :=
  pCtx.xMbedInitialized = true →
    match transferEnd call.want call.length call.results 0 with
    | .complete | .nothing => True
    | .error result => result ≠ call.otherWant ∧ call.moved pCtx = 0
    | .waiting => call.moved pCtx = 0

section Calls

variable {pCtx : TLSContext} {call : TransferCall}

/-- A call on an invalidated context. -/
theorem faithful_of_dead (h : pCtx.xMbedInitialized = false) : Faithful pCtx call := by
  have hpieces : call.pieces pCtx = [] := by
    unfold TransferCall.pieces
    rw [h]
    rfl
  have hmake : call.make pCtx = some ⟨errSslInternalError, pCtx, [.use .context]⟩ := by
    rw [call.make_eq]
    unfold transfer
    rw [h]
    rfl
  refine ⟨?_, fun hmoved => ?_, fun _ _ hlive => ?_, fun last hlast _ => ?_, fun _ => ?_⟩
  · unfold TransferCall.moved
    rw [hpieces]
    rfl
  · unfold TransferCall.moved at hmoved
    rw [hpieces] at hmoved
    exact absurd hmoved (Nat.lt_irrefl 0)
  · rw [h] at hlive
    cases hlive
  · rw [hmake] at hlast
    cases hlast
    exact h
  · exact ⟨_, hmake, show errSslInternalError < 0 by decide, rfl, rfl⟩

/-- Among the errors that end a call only the other want code is not hard. -/
theorem hard_error_iff {result : Int} (hnegative : result < 0) (hwant : result ≠ call.want) :
    IsHardError result ↔ result ≠ call.otherWant := by
  cases call with
  | recv xReadLength results => exact ⟨fun h => h.2.2, fun h => ⟨hnegative, hwant, h⟩⟩
  | send xMsgLength results => exact ⟨fun h => h.2.1, fun h => ⟨hnegative, h, hwant⟩⟩

/-- A call is faithful just if it fits. -/
theorem faithful_iff_fits (pCtx : TLSContext) (call : TransferCall) :
    Faithful pCtx call ↔ call.Fits pCtx := by
  cases hinitialized : pCtx.xMbedInitialized with
  | false =>
      refine iff_of_true (faithful_of_dead hinitialized) fun hlive => ?_
      rw [hinitialized] at hlive
      cases hlive
  | true =>
      have hpieces : call.pieces pCtx =
          transferPieces call.want call.length call.results 0 := if_pos hinitialized
      have hmoved : call.moved pCtx =
          movedBytes (transferPieces call.want call.length call.results 0) := by
        unfold TransferCall.moved
        rw [hpieces]
      have hconsecutive : (call.pieces pCtx).flatMap (fun piece => List.range' piece.1 piece.2) =
          List.range (call.moved pCtx) := by
        rw [hpieces, hmoved, pieces_consecutive, List.range_eq_range']
      have hmake : call.make pCtx =
          (transferLoop call.want call.length pCtx call.results 0 0).map fun last =>
            { last with actions := .use .context :: last.actions } := by
        rw [call.make_eq]
        unfold transfer
        rw [if_pos hinitialized]
      have hloop := @transfer_loop_end call.want call.length pCtx call.results 0 0
        (Or.inr (Int.le_refl 0))
      rw [← hmoved, Int.natCast_zero, Int.zero_add] at hloop
      -- The loop comes to its end without an error.
      have hdone : (∃ last, transferLoop call.want call.length pCtx call.results 0 0 = some last ∧
          last.xResult = call.moved pCtx ∧ last.pCtx = pCtx) → Faithful pCtx call := by
        rintro ⟨last, hlast, hresult, hcontext⟩
        rw [hlast] at hmake
        have hkept : ∀ last' ∈ call.make pCtx, last'.xResult = call.moved pCtx ∧
            last'.pCtx = pCtx := by
          intro last' hmem
          rw [hmake] at hmem
          cases hmem
          exact ⟨hresult, hcontext⟩
        refine ⟨hconsecutive, fun _ => ⟨_, hmake, hresult⟩, fun last' hmem _ hdead => ?_,
          fun last' hmem hnegative => ?_, fun hdead => ?_⟩
        · rw [(hkept last' hmem).2, hinitialized] at hdead
          cases hdead
        · have hresult' := (hkept last' hmem).1
          omega
        · rw [hinitialized] at hdead
          cases hdead
      unfold TransferCall.Fits
      rw [hinitialized]
      cases hend : transferEnd call.want call.length call.results 0 with
      | complete =>
          rw [hend] at hloop
          exact iff_of_true (hdone hloop) fun _ => trivial
      | nothing =>
          rw [hend] at hloop
          exact iff_of_true (hdone hloop) fun _ => trivial
      | error result =>
          rw [hend] at hloop
          obtain ⟨hnegative, last, hlast, hresult, hcontext⟩ := hloop
          have hwant : result ≠ call.want := by
            rintro rfl
            exact transfer_end_ne_want _ _ hend
          have hdead : last.pCtx.xMbedInitialized = false := by
            rw [hcontext]
            rfl
          rw [hlast, Option.map_some] at hmake
          constructor
          · intro h _
            have hhard := h.wants _ hmake hinitialized hdead
            change IsHardError last.xResult at hhard
            rw [hresult] at hhard
            refine ⟨(hard_error_iff hnegative hwant).mp hhard, ?_⟩
            · by_contra hmoved'
              obtain ⟨last', hlast', hexact⟩ := h.exact (Nat.pos_of_ne_zero hmoved')
              rw [hmake] at hlast'
              cases hlast'
              change last.xResult = _ at hexact
              omega
          · intro h
            obtain ⟨hother, hnone⟩ := h rfl
            refine ⟨hconsecutive, fun hpositive => ?_, fun last' hmem _ _ => ?_,
              fun last' hmem _ => ?_, fun habsurd => ?_⟩
            · omega
            · rw [hmake] at hmem
              cases hmem
              show IsHardError last.xResult
              rw [hresult]
              exact (hard_error_iff hnegative hwant).mpr hother
            · rw [hmake] at hmem
              cases hmem
              exact hdead
            · rw [hinitialized] at habsurd
              cases habsurd
      | waiting =>
          rw [hend] at hloop
          simp only at hloop
          rw [hloop] at hmake
          have hnone : ∀ last, last ∉ call.make pCtx := by
            intro last hmem
            rw [hmake] at hmem
            cases hmem
          constructor
          · intro h _
            by_contra hmoved'
            obtain ⟨last, hlast, -⟩ := h.exact (Nat.pos_of_ne_zero hmoved')
            exact hnone last hlast
          · intro h
            have hmoved' := h rfl
            simp only at hmoved'
            refine ⟨hconsecutive, fun hpositive => ?_, fun last hmem => absurd hmem (hnone last),
              fun last hmem => absurd hmem (hnone last), fun habsurd => ?_⟩
            · omega
            · rw [hinitialized] at habsurd
              cases habsurd

end Calls

/-! ## Calls one after the other -/

/-- Every call up to one that does not return is faithful. -/
def AllFaithful : TLSContext → List TransferCall → Prop
  | _, [] => True
  | pCtx, call :: rest =>
      Faithful pCtx call ∧ ∀ last ∈ call.make pCtx, AllFaithful last.pCtx rest

/-- Every call up to one that does not return fits. -/
def AllFit : TLSContext → List TransferCall → Prop
  | _, [] => True
  | pCtx, call :: rest => call.Fits pCtx ∧ ∀ last ∈ call.make pCtx, AllFit last.pCtx rest

/-- For every context and all results of mbedTLS, the calls of `TLS_Recv` and `TLS_Send` are
faithful just if none of them, after it has moved bytes, ends with an error or waits for ever, and
none gets the want code of the other direction. -/
theorem transfers_faithful_iff (pCtx : TLSContext) (calls : List TransferCall) :
    AllFaithful pCtx calls ↔ AllFit pCtx calls := by
  induction calls generalizing pCtx with
  | nil => exact Iff.rfl
  | cons call rest ih =>
      unfold AllFaithful AllFit
      rw [faithful_iff_fits]
      exact and_congr_right fun _ => forall₂_congr fun last _ => ih last.pCtx

/-- A context after a handshake. -/
def connectedContext : TLSContext := ⟨true, false, true, true, true⟩

/-- Four bytes are received, and then the peer closes the connection. -/
def closedReception : List TransferCall := [.recv 8 [4, -0x7880]]

/-- The four bytes are in the buffer, and the caller gets an error. -/
theorem closed_reception_loses_bytes :
    ((closedReception.head (by decide)).make connectedContext).map Transfer.xResult =
        some (-0x7880) ∧
      (closedReception.head (by decide)).moved connectedContext = 4 ∧
      ¬ AllFaithful connectedContext closedReception := by
  refine ⟨by decide, by decide, fun h => ?_⟩
  obtain ⟨last, hlast, hexact⟩ := h.1.exact (by decide)
  cases hlast
  exact absurd hexact (by decide)

end TivaAws.Tls
