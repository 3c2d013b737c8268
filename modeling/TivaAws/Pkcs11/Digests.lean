import TivaAws.Pkcs11.Module

/-!
# Digests of a session

A session has a flag for the operation in progress and one hash context. From outside there is at
most one digest operation, which a successful `C_DigestInit` starts or restarts, to which successful
calls of `C_DigestUpdate` add data, and which a successful `C_DigestFinal` with a buffer ends. The
flag and the context agree with it all the time, whatever other calls are made on the session
(`DigestMatches.execute`), so the digest is that of the data since the last successful init
(`digests_sound`).
-/

namespace TivaAws.Pkcs11

variable {session session' : P11Session} {keys keys' : Keys} {running : Option (List UInt8)}
  {call : SessionCall} {reply : Reply}

/-! ## The operation from outside -/

/-- The data of the successful updates since the last successful init, none if no operation is
running, after a call with a result. -/
def digestAfter (running : Option (List UInt8)) (call : SessionCall) (result : Option CKRV) :
    Option (List UInt8) :=
  match call, result with
  | .digestInit _ _, some .ok => some []
  | .digestUpdate pPart _, some .ok => running.map (· ++ pPart)
  | .digestFinal true _ _, some .ok => none
  | _, _ => running

/-- The functions of mbedTLS that the call would use do not fail. -/
def SessionCall.HashSucceeds : SessionCall → Prop
  | .digestInit _ started => started = true
  | .digestUpdate _ updated => updated = true
  | .digestFinal _ _ finished => finished = true
  | _ => True

/-- What a call on a session does to its digest operation. -/
structure DigestSound (running : Option (List UInt8)) (session : P11Session) (keys : Keys)
    (call : SessionCall) (reply : Reply) : Prop where
  /-- A digest is that of the data. -/
  digest : ∀ pulDigestLen finished, call = .digestFinal true pulDigestLen finished →
    reply.result = some .ok → ∃ data ∈ running, reply.outputs = [.digest data]
  /-- The size is returned, and the operation goes on. -/
  query : ∀ pulDigestLen finished, call = .digestFinal false pulDigestLen finished →
    running.isSome → reply = ⟨some .ok, session, keys, [.length sha256DigestBytes]⟩
  /-- The buffer is too small, and the operation goes on. -/
  small : ∀ pulDigestLen finished, call = .digestFinal true pulDigestLen finished →
    running.isSome → pulDigestLen < sha256DigestBytes →
      reply = .done .bufferTooSmall session keys
  /-- Nothing can be added without an operation. -/
  update_outside : ∀ pPart updated, call = .digestUpdate pPart updated → running = none →
    reply = .done .operationNotInitialized session keys
  /-- Nothing can be ended without an operation. -/
  final_outside : ∀ pDigest pulDigestLen finished,
    call = .digestFinal pDigest pulDigestLen finished → running = none →
      reply = .done .operationNotInitialized session keys

/-- Every call of a list is sound, until one has undefined behavior. -/
def DigestsSound (running : Option (List UInt8)) (session : P11Session) (keys : Keys) :
    List SessionCall → Prop
  | [] => True
  | call :: rest =>
      let reply := call.execute session keys
      DigestSound running session keys call reply ∧
        (reply.result.isSome →
          DigestsSound (digestAfter running call reply.result) reply.session reply.keys rest)

/-! ## The operation in the session -/

/-- The flag and the context of the session agree with the operation. -/
def DigestMatches (session : P11Session) : Option (List UInt8) → Prop
  | none => session.xOperationInProgress = none
  | some data =>
      session.xOperationInProgress = some ckmSha256 ∧ session.xSHA256Context = data

/-- The flag and the context stay as they are. -/
structure KeepsDigest (session session' : P11Session) : Prop where
  operation : session'.xOperationInProgress = session.xOperationInProgress
  context : session'.xSHA256Context = session.xSHA256Context

theorem KeepsDigest.refl : KeepsDigest session session := ⟨rfl, rfl⟩

theorem KeepsDigest.trans {session'' : P11Session} (hfirst : KeepsDigest session session')
    (hsecond : KeepsDigest session' session'') : KeepsDigest session session'' :=
  ⟨hsecond.operation.trans hfirst.operation, hsecond.context.trans hfirst.context⟩

theorem KeepsDigest.matches (h : KeepsDigest session session')
    (hmatches : DigestMatches session running) : DigestMatches session' running := by
  cases running with
  | none => exact h.operation.trans hmatches
  | some data => exact ⟨h.operation.trans hmatches.1, h.context.trans hmatches.2⟩

/-! ## Calls that have nothing to do with digests -/

theorem create_object_keeps_digest (pxTemplate : Option (List CKAttribute)) (pxObject : Bool)
    (o : CreateOutcomes) :
    KeepsDigest session (cCreateObject pxTemplate pxObject o session keys).session := by
  unfold cCreateObject Reply.done
  split
  · split_ifs
    · exact .refl
    · split <;> exact .refl
    · split
      · unfold createPublicKey
        split_ifs
        · exact .refl
        · dsimp only
          split <;> exact ⟨rfl, rfl⟩
      · exact .refl
    · split <;> exact .refl
    · exact .refl
  · exact .refl

theorem follow_key_keeps_digest (operation : P11Key → Option CKRV) :
    KeepsDigest session (followKey session keys operation).session := by
  unfold followKey
  split
  · exact .refl
  · split <;> exact .refl

theorem find_objects_keeps_digest (pxObject pulObjectCount : Bool) (ulMaxObjectCount : Nat)
    (o : LoadOutcomes) :
    KeepsDigest session
      (cFindObjects pxObject pulObjectCount ulMaxObjectCount o session keys).session := by
  have hloaded : KeepsDigest session
      (prvLoadAndInitializeDefaultCertificateAndKey o session keys).session := by
    unfold prvLoadAndInitializeDefaultCertificateAndKey prvInitializeKey Reply.done
    split
    · split <;> exact ⟨rfl, rfl⟩
    · split <;> exact .refl
  unfold cFindObjects Reply.done returnObjects
  split_ifs
  · exact .refl
  · exact .refl
  · exact .refl
  · exact .refl
  · dsimp only
    split_ifs
    · exact hloaded.trans ⟨rfl, rfl⟩
    · exact hloaded
  · exact ⟨rfl, rfl⟩

theorem generate_key_pair_keeps_digest (arguments : GenerateArguments) (o : GenerateOutcomes) :
    KeepsDigest session (cGenerateKeyPair arguments o session keys).session := by
  have hattach : ∀ pxNewKey newKey,
      KeepsDigest session (attachKey pxNewKey newKey session keys).session := by
    intro pxNewKey newKey
    unfold attachKey
    dsimp only
    split
    · exact ⟨rfl, rfl⟩
    · split_ifs
      · exact ⟨rfl, rfl⟩
      · exact .refl
  unfold cGenerateKeyPair Reply.done discardKey
  by_cases hsupported : arguments.Supported
  · rw [if_neg (not_not.mpr hsupported)]
    split
    · exact .refl
    · split
      · exact .refl
      · split
        · exact hattach _ _
        · exact .refl
  · rw [if_pos hsupported]
    exact .refl

/-! ## One call -/

/-- A call keeps the session in agreement with the operation. -/
theorem DigestMatches.execute (h : DigestMatches session running) (hhash : call.HashSucceeds) :
    DigestMatches (call.execute session keys).session
      (digestAfter running call (call.execute session keys).result) := by
  have hother : ∀ {session'}, KeepsDigest session session' → DigestMatches session' running :=
    fun hkeeps => hkeeps.matches h
  -- Only the last three calls touch the flag and the hash context.
  cases call with
  | createObject pxTemplate pxObject o => exact hother (create_object_keeps_digest _ _ _)
  | destroyObject xObject =>
      refine hother ?_
      show KeepsDigest session (cDestroyObject xObject session keys).session
      unfold cDestroyObject Reply.done
      split_ifs <;> exact .refl
  | getAttributeValue xObject bitlen pxTemplate =>
      refine hother ?_
      show KeepsDigest session (cGetAttributeValue xObject bitlen pxTemplate session keys).session
      unfold cGetAttributeValue Reply.done
      split <;> exact .refl
  | findObjectsInit pxTemplate =>
      refine hother ?_
      show KeepsDigest session (cFindObjectsInit pxTemplate session keys).session
      unfold cFindObjectsInit Reply.done
      split <;> exact ⟨rfl, rfl⟩
  | findObjects pxObject pulObjectCount ulMaxObjectCount o =>
      exact hother (find_objects_keeps_digest _ _ _ _)
  | findObjectsFinal =>
      refine hother ?_
      show KeepsDigest session (cFindObjectsFinal session keys).session
      unfold cFindObjectsFinal Reply.done
      split_ifs <;> exact ⟨rfl, rfl⟩
  | signInit pxMechanism => exact hother .refl
  | sign pulSignatureLen pucSignature ulDataLen signed =>
      refine hother ?_
      show KeepsDigest session
        (cSign pulSignatureLen pucSignature ulDataLen signed session keys).session
      unfold cSign Reply.done
      split
      · exact .refl
      · split
        · exact .refl
        · split
          · exact .refl
          · exact follow_key_keeps_digest _
  | verifyInit pxMechanism => exact hother .refl
  | verify pucData pucSignature verified =>
      refine hother ?_
      show KeepsDigest session (cVerify pucData pucSignature verified session keys).session
      unfold cVerify Reply.done
      split
      · exact .refl
      · split
        · exact .refl
        · exact follow_key_keeps_digest _
  | generateKeyPair arguments o => exact hother (generate_key_pair_keeps_digest _ _)
  | digestInit mechanism started =>
      obtain rfl : started = true := hhash
      show DigestMatches (cDigestInit mechanism true session keys).session
        (digestAfter running _ (cDigestInit mechanism true session keys).result)
      unfold cDigestInit
      by_cases hmechanism : mechanism = ckmSha256
      · rw [if_neg (not_not.mpr hmechanism), hmechanism]
        exact ⟨rfl, rfl⟩
      · rw [if_pos hmechanism]
        exact h
  | digestUpdate pPart updated =>
      obtain rfl : updated = true := hhash
      show DigestMatches (cDigestUpdate pPart true session keys).session
        (digestAfter running _ (cDigestUpdate pPart true session keys).result)
      unfold cDigestUpdate
      cases running with
      | none =>
          rw [if_pos (by rw [h]; exact fun hrunning => (by cases hrunning))]
          exact h
      | some data =>
          rw [if_neg (not_not.mpr h.1)]
          exact ⟨h.1, congrArg (· ++ pPart) h.2⟩
  | digestFinal pDigest pulDigestLen finished =>
      obtain rfl : finished = true := hhash
      show DigestMatches (cDigestFinal pDigest pulDigestLen true session keys).session
        (digestAfter running _ (cDigestFinal pDigest pulDigestLen true session keys).result)
      unfold cDigestFinal
      cases running with
      | none =>
          rw [if_pos (by rw [h]; exact fun hrunning => (by cases hrunning))]
          cases pDigest <;> exact rfl
      | some data =>
          rw [if_neg (not_not.mpr h.1)]
          cases pDigest with
          | false => exact h
          | true =>
              rw [if_neg (not_not.mpr rfl)]
              -- A buffer that is too small does not end the operation.
              by_cases hsmall : pulDigestLen < sha256DigestBytes
              · rw [if_pos hsmall]
                exact h
              · rw [if_neg hsmall, if_pos rfl]
                exact rfl

/-- In agreement with the operation, a call is sound. -/
theorem DigestMatches.sound (h : DigestMatches session running) (hhash : call.HashSucceeds) :
    DigestSound running session keys call (call.execute session keys) := by
  -- Outside an operation the flag is reset to what it is.
  have hreset : running = none → { session with xOperationInProgress := none } = session := by
    rintro rfl
    have hnone : session.xOperationInProgress = none := h
    rw [← hnone]
  have houtside : running = none → session.xOperationInProgress ≠ some ckmSha256 := by
    rintro rfl
    rw [show session.xOperationInProgress = none from h]
    exact nofun
  have hinside : running.isSome → ¬ session.xOperationInProgress ≠ some ckmSha256 := by
    intro hsome
    obtain ⟨data, rfl⟩ := Option.isSome_iff_exists.mp hsome
    exact not_not.mpr h.1
  constructor
  · rintro pulDigestLen finished rfl hok
    obtain rfl : finished = true := hhash
    change (cDigestFinal true pulDigestLen true session keys).result = some .ok at hok
    show ∃ data ∈ running, (cDigestFinal true pulDigestLen true session keys).outputs = _
    unfold cDigestFinal at hok ⊢
    cases running with
    | none =>
        rw [if_pos (houtside rfl)] at hok
        cases hok
    | some data =>
        rw [if_neg (hinside rfl), if_neg (not_not.mpr rfl)] at hok ⊢
        by_cases hsmall : pulDigestLen < sha256DigestBytes
        · rw [if_pos hsmall] at hok
          cases hok
        · rw [if_neg hsmall, if_pos rfl]
          refine ⟨data, rfl, ?_⟩
          show [Output.digest session.xSHA256Context] = _
          rw [h.2]
  · rintro pulDigestLen finished rfl hsome
    show cDigestFinal false pulDigestLen finished session keys = _
    unfold cDigestFinal
    rw [if_neg (hinside hsome), if_pos Bool.false_ne_true]
  · rintro pulDigestLen finished rfl hsome hsmall
    show cDigestFinal true pulDigestLen finished session keys = _
    unfold cDigestFinal
    rw [if_neg (hinside hsome), if_neg (not_not.mpr rfl), if_pos hsmall]
  · rintro pPart updated rfl hnone
    show cDigestUpdate pPart updated session keys = _
    unfold cDigestUpdate
    rw [if_pos (houtside hnone)]
  · rintro pDigest pulDigestLen finished rfl hnone
    show cDigestFinal pDigest pulDigestLen finished session keys = _
    unfold cDigestFinal
    rw [if_pos (houtside hnone), hreset hnone]

/-! ## Runs -/

/-- In agreement with the operation, every call of a list is sound. -/
theorem DigestMatches.run (calls : List SessionCall) (h : DigestMatches session running)
    (hhash : ∀ call ∈ calls, call.HashSucceeds) : DigestsSound running session keys calls := by
  induction calls generalizing session keys running with
  | nil => trivial
  | cons call rest ih =>
      have hcall := hhash call List.mem_cons_self
      refine ⟨h.sound hcall, fun _ => ih (h.execute hcall) ?_⟩
      exact fun later hlater => hhash later (List.mem_cons_of_mem _ hlater)

/-- On a session that has just been opened, calls are made in any order, and mbedTLS does not fail.
Then a successful `C_DigestFinal` with a buffer yields the digest of the data of all successful
updates since the last successful init, a size query or a buffer that is too small leaves the
session as it is, and so does an update or a final outside an operation, which returns an error. -/
theorem digests_sound (keys : Keys) (calls : List SessionCall)
    (hhash : ∀ call ∈ calls, call.HashSucceeds) : DigestsSound none .opened keys calls :=
  DigestMatches.run calls rfl hhash

/-- A restart, a rejected init, a size query and a final. -/
def restartedDigest : List SessionCall :=
  [.digestInit ckmSha256 true, .digestUpdate [1, 2] true, .digestInit ckmSha256 true,
    .digestUpdate [3] true, .digestInit 0 true, .digestFinal false 0 true,
    .digestUpdate [4, 5] true, .digestFinal true 32 true, .digestFinal true 32 true]

theorem digests_sound_restarted :
    (∀ call ∈ restartedDigest, call.HashSucceeds) ∧
      DigestsSound none .opened (fun _ => none) restartedDigest := by
  have hhash : ∀ call ∈ restartedDigest, call.HashSucceeds := by
    unfold restartedDigest
    simp [SessionCall.HashSucceeds]
  exact ⟨hhash, digests_sound _ _ hhash⟩

end TivaAws.Pkcs11
