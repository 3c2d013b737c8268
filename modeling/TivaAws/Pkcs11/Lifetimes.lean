import TivaAws.Pkcs11.Module

/-!
# Lifetimes of key structures

A key structure belongs to the session whose current key it is. Every function but
`C_DestroyObject` keeps that so: it follows the current key only, frees it only when it puts another
one in its place, and `C_CloseSession` frees the last one. `C_DestroyObject` frees a generated key
and leaves the pointer in the session.
-/

namespace TivaAws.Pkcs11

open Labelled Lifetime

/-- What an output does with a key structure. -/
def Output.keyAction : Output → Option (Action Nat)
  | .key action => some action
  | _ => none

/-- The key actions of some outputs. -/
abbrev keyActions (outputs : List Output) : List (Action Nat) :=
  outputs.filterMap Output.keyAction

theorem key_actions_append (first second : List Output) :
    keyActions (first ++ second) = keyActions first ++ keyActions second :=
  List.filterMap_append

/-- The live keys are those on the heap. -/
structure Tracks (live : List Nat) (keys : Keys) : Prop where
  nodup : live.Nodup
  mem_iff : ∀ pxKey, pxKey ∈ live ↔ (keys pxKey).isSome

/-- What a function does to key structures, if it does nothing to those of other sessions. -/
structure KeyEffect (session : P11Session) (keys : Keys) (reply : Reply) : Prop where
  tracks : ∀ live, Tracks live keys → Safe live (keyActions reply.outputs) ∧
    Tracks (remaining live (keyActions reply.outputs)) reply.keys
  others : ∀ pxKey, session.pxCurrentKey ≠ some pxKey → reply.session.pxCurrentKey ≠ some pxKey →
    reply.keys pxKey = keys pxKey
  current : ∀ pxKey, reply.session.pxCurrentKey = some pxKey → (reply.keys pxKey).isSome
  fresh : ∀ pxKey, reply.session.pxCurrentKey = some pxKey →
    session.pxCurrentKey = some pxKey ∨ keys pxKey = none
  dropped : ∀ pxKey, session.pxCurrentKey = some pxKey →
    reply.session.pxCurrentKey ≠ some pxKey → reply.keys pxKey = none

variable {session : P11Session} {keys : Keys} {reply : Reply} {live : List Nat} {pxKey : Nat}
  {key : P11Key}

/-! ## The heap -/

/-- A key structure is allocated. -/
theorem Tracks.acquire (key : P11Key) (h : Tracks live keys) (hfree : keys pxKey = none) :
    pxKey ∉ live ∧ Tracks (pxKey :: live) (Function.update keys pxKey (some key)) := by
  have hnot : pxKey ∉ live := by
    rw [h.mem_iff, hfree]
    decide
  refine ⟨hnot, List.nodup_cons.mpr ⟨hnot, h.nodup⟩, fun other => ?_⟩
  rw [List.mem_cons, Function.update_apply]
  by_cases heq : other = pxKey
  · simp [heq]
  · simp [heq, h.mem_iff other]

/-- A key structure is freed. -/
theorem Tracks.release (h : Tracks live keys) :
    Tracks (live.erase pxKey) (Function.update keys pxKey none) := by
  refine ⟨h.nodup.erase pxKey, fun other => ?_⟩
  rw [h.nodup.mem_erase_iff, Function.update_apply]
  by_cases heq : other = pxKey
  · simp [heq]
  · simp [heq, h.mem_iff other]

/-- A key structure is written to. -/
theorem Tracks.write (h : Tracks live keys) (hlive : (keys pxKey).isSome) :
    Tracks live (Function.update keys pxKey (some key)) := by
  refine ⟨h.nodup, fun other => ?_⟩
  rw [Function.update_apply, h.mem_iff other]
  by_cases heq : other = pxKey
  · simp [heq, hlive]
  · simp [heq]

/-! ## Functions that use the current key -/

/-- The outputs use the current key and do nothing else to key structures. -/
def UsesCurrent (session : P11Session) (outputs : List Output) : Prop :=
  ∀ action ∈ keyActions outputs, ∃ pxKey, session.pxCurrentKey = some pxKey ∧ action = .use pxKey

theorem UsesCurrent.nil : UsesCurrent session [] :=
  fun _ hmem => absurd hmem List.not_mem_nil

theorem UsesCurrent.append {first second : List Output} (hfirst : UsesCurrent session first)
    (hsecond : UsesCurrent session second) : UsesCurrent session (first ++ second) := by
  intro action hmem
  rw [key_actions_append] at hmem
  rcases List.mem_append.mp hmem with hmem | hmem
  · exact hfirst action hmem
  · exact hsecond action hmem

/-- An output that is not about key structures. -/
theorem UsesCurrent.other {output : Output} (h : output.keyAction = none) :
    UsesCurrent session [output] := by
  intro action hmem
  rw [keyActions, List.filterMap_cons, h] at hmem
  exact absurd hmem List.not_mem_nil

theorem UsesCurrent.use (h : session.pxCurrentKey = some pxKey) :
    UsesCurrent session [.key (.use pxKey)] := by
  intro action hmem
  exact ⟨pxKey, h, List.mem_singleton.mp hmem⟩

/-- The current key of the session is live. -/
def CurrentLive (session : P11Session) (keys : Keys) : Prop :=
  ∀ pxKey, session.pxCurrentKey = some pxKey → (keys pxKey).isSome

/-- A function that uses the current key at most. -/
theorem KeyEffect.uses (hcurrent : CurrentLive session keys)
    (hsession : reply.session.pxCurrentKey = session.pxCurrentKey) (hkeys : reply.keys = keys)
    (huses : UsesCurrent session reply.outputs) : KeyEffect session keys reply := by
  constructor
  · intro live htracks
    have hlive : Uses live (keyActions reply.outputs) := by
      intro action hmem
      obtain ⟨pxKey, hkey, haction⟩ := huses action hmem
      exact ⟨pxKey, (htracks.mem_iff pxKey).mpr (hcurrent pxKey hkey), haction⟩
    obtain ⟨hsafe, hremaining⟩ := hlive.safe
    rw [hremaining, hkeys]
    exact ⟨hsafe, htracks⟩
  · intro pxKey _ _
    rw [hkeys]
  · intro pxKey hkey
    rw [hkeys]
    exact hcurrent pxKey (hsession ▸ hkey)
  · intro pxKey hkey
    exact .inl (hsession ▸ hkey)
  · intro pxKey hkey hnot
    exact absurd (hsession.trans hkey) hnot

/-- A return without any action. -/
theorem KeyEffect.done {result : CKRV} {session' : P11Session}
    (hcurrent : CurrentLive session keys)
    (hsession : session'.pxCurrentKey = session.pxCurrentKey) :
    KeyEffect session keys (.done result session' keys) :=
  .uses hcurrent hsession rfl .nil

/-- Following the pointer to the current key. -/
theorem follow_key_effect (hcurrent : CurrentLive session keys)
    (operation : P11Key → Option CKRV) :
    KeyEffect session keys (followKey session keys operation) := by
  unfold followKey
  split
  next => exact .uses hcurrent rfl rfl (.other rfl)
  next pxKey hkey =>
    split
    next => exact .uses hcurrent rfl rfl (.use hkey)
    next => exact .uses hcurrent rfl rfl ((UsesCurrent.use hkey).append (.other rfl))

theorem read_key_uses (session : P11Session) (keys : Keys)
    (value : P11Key → Except CKRV AttributeData) :
    UsesCurrent session (readKey session keys value).2 := by
  unfold readKey
  split
  next => exact .other rfl
  next pxKey hkey =>
    split
    next => exact .use hkey
    next key _ =>
      split
      next => exact .use hkey
      next => exact (UsesCurrent.use hkey).append (.other rfl)

/-- Reading an attribute. -/
theorem attribute_data_uses (xObject bitlen : Nat) (query : AttributeQuery)
    (session : P11Session) (keys : Keys) :
    UsesCurrent session (attributeData xObject bitlen query session keys).2 := by
  unfold attributeData keyTypeAttribute valueAttribute bitLengthAttribute keyContextAttribute
  split_ifs
  · exact .nil
  · exact read_key_uses _ _ _
  · exact read_key_uses _ _ _
  · exact .nil
  · exact .nil
  · exact .other rfl
  · exact read_key_uses _ _ _
  · exact read_key_uses _ _ _
  · exact .nil
  · exact .nil

theorem get_attributes_uses (xObject bitlen : Nat) (session : P11Session) (keys : Keys)
    (queries : List AttributeQuery) :
    UsesCurrent session (getAttributes xObject bitlen session keys queries).2.2 := by
  induction queries with
  | nil => exact .nil
  | cons query rest ih =>
      have hfirst := attribute_data_uses xObject bitlen query session keys
      unfold getAttributes
      split
      next houtputs => exact congrArg Prod.snd houtputs ▸ hfirst
      next houtputs => exact congrArg Prod.snd houtputs ▸ hfirst
      next houtputs =>
        have hfirst := congrArg Prod.snd houtputs ▸ hfirst
        split
        next => exact hfirst
        next => exact hfirst.append ih

/-- `C_GetAttributeValue`. -/
theorem get_attribute_value_effect (hcurrent : CurrentLive session keys) (xObject bitlen : Nat)
    (pxTemplate : Option (List AttributeQuery)) :
    KeyEffect session keys (cGetAttributeValue xObject bitlen pxTemplate session keys) := by
  cases pxTemplate with
  | none => exact .done hcurrent rfl
  | some queries =>
      exact .uses hcurrent rfl rfl ((get_attributes_uses _ _ _ _ _).append (.other rfl))

/-- `C_CreateObject`. -/
theorem create_object_effect (hcurrent : CurrentLive session keys)
    (pxTemplate : Option (List CKAttribute)) (pxObject : Bool) (o : CreateOutcomes) :
    KeyEffect session keys (cCreateObject pxTemplate pxObject o session keys) := by
  have hcertificate : ∀ value certificateType,
      UsesCurrent session (createCertificate o value certificateType).2 := by
    intro value certificateType
    unfold createCertificate
    repeat' split
    all_goals exact .nil
  have hpublic : ∀ value, UsesCurrent session (createPublicKey o value session).2.2 ∧
      (createPublicKey o value session).2.1.pxCurrentKey = session.pxCurrentKey := by
    intro value
    unfold createPublicKey
    repeat' split
    · exact ⟨.nil, rfl⟩
    · exact ⟨.nil, rfl⟩
    · exact ⟨.other rfl, rfl⟩
  have hprivate : ∀ value, UsesCurrent session (createPrivateKey o value).2 := by
    intro value
    unfold createPrivateKey
    repeat' split
    all_goals exact .nil
  unfold cCreateObject
  repeat' split
  all_goals first
    | exact .done hcurrent rfl
    | exact .uses hcurrent rfl rfl (hcertificate _ _)
    | exact .uses hcurrent (hpublic _).2 rfl (hpublic _).1
    | exact .uses hcurrent rfl rfl (hprivate _)

/-! ## Functions that give the session another key -/

/-- The session gets its first key. -/
theorem KeyEffect.attach (hnone : session.pxCurrentKey = none) (hfree : keys pxKey = none)
    (hsession : reply.session.pxCurrentKey = some pxKey)
    (hkeys : reply.keys = Function.update keys pxKey (some key))
    (hactions : keyActions reply.outputs = [.acquire pxKey, .use pxKey]) :
    KeyEffect session keys reply := by
  constructor
  · intro live htracks
    obtain ⟨hnot, hafter⟩ := htracks.acquire key hfree
    rw [hactions, hkeys]
    exact ⟨⟨hnot, List.mem_cons_self, trivial⟩, hafter⟩
  · intro other _ hother
    have hne : other ≠ pxKey := fun heq => hother (heq ▸ hsession)
    rw [hkeys, Function.update_of_ne hne]
  · intro other hother
    rw [← Option.some.inj (hsession.symm.trans hother), hkeys, Function.update_self]
    rfl
  · intro other hother
    rw [← Option.some.inj (hsession.symm.trans hother)]
    exact .inr hfree
  · intro other hother
    rw [hnone] at hother
    cases hother

/-- The session gets another key. -/
theorem KeyEffect.replace {pxOldKey : Nat} (hold : session.pxCurrentKey = some pxOldKey)
    (hlive : (keys pxOldKey).isSome) (hfree : keys pxKey = none)
    (hsession : reply.session.pxCurrentKey = some pxKey)
    (hkeys : reply.keys = Function.update (Function.update keys pxKey (some key)) pxOldKey none)
    (hactions : keyActions reply.outputs =
      [.acquire pxKey, .use pxKey, .use pxOldKey, .release pxOldKey]) :
    KeyEffect session keys reply := by
  have hne : pxKey ≠ pxOldKey := by
    rintro rfl
    rw [hfree] at hlive
    cases hlive
  constructor
  · intro live htracks
    obtain ⟨hnot, hafter⟩ := htracks.acquire key hfree
    have hmem : pxOldKey ∈ pxKey :: live :=
      List.mem_cons_of_mem _ ((htracks.mem_iff pxOldKey).mpr hlive)
    rw [hactions, hkeys]
    exact ⟨⟨hnot, List.mem_cons_self, hmem, hmem, trivial⟩, hafter.release⟩
  · intro other hother hother'
    have hold' : other ≠ pxOldKey := fun heq => hother (heq ▸ hold)
    have hnew' : other ≠ pxKey := fun heq => hother' (heq ▸ hsession)
    rw [hkeys, Function.update_of_ne hold', Function.update_of_ne hnew']
  · intro other hother
    rw [← Option.some.inj (hsession.symm.trans hother), hkeys, Function.update_of_ne hne,
      Function.update_self]
    rfl
  · intro other hother
    rw [← Option.some.inj (hsession.symm.trans hother)]
    exact .inr hfree
  · intro other hother _
    rw [← Option.some.inj (hold.symm.trans hother), hkeys, Function.update_self]

/-- A new key is freed again. -/
theorem discard_key_effect (hcurrent : CurrentLive session keys) (hfree : keys pxKey = none)
    (result : CKRV) : KeyEffect session keys (discardKey result pxKey session keys) := by
  constructor
  · intro live htracks
    obtain ⟨hnot, -⟩ := htracks.acquire .zero hfree
    refine ⟨⟨hnot, List.mem_cons_self, List.mem_cons_self, trivial⟩, ?_⟩
    show Tracks ((pxKey :: live).erase pxKey) keys
    rw [List.erase_cons_head]
    exact htracks
  · exact fun _ _ _ => rfl
  · exact hcurrent
  · exact fun _ hkey => .inl hkey
  · exact fun _ hkey hnot => absurd hkey hnot

/-- `C_GenerateKeyPair`. -/
theorem generate_key_pair_effect (hcurrent : CurrentLive session keys)
    (arguments : GenerateArguments) (o : GenerateOutcomes)
    (hfree : ∀ pxKey, o.allocated = some pxKey → keys pxKey = none) :
    KeyEffect session keys (cGenerateKeyPair arguments o session keys) := by
  unfold cGenerateKeyPair
  split
  next => exact .done hcurrent rfl
  next =>
    split
    next => exact .done hcurrent rfl
    next pxNewKey hallocated =>
      have hfree := hfree pxNewKey hallocated
      split
      next => exact discard_key_effect hcurrent hfree _
      next pk _ =>
        split
        next =>
          unfold attachKey
          cases hcase : session.pxCurrentKey with
          | none => exact .attach hcase hfree rfl rfl rfl
          | some pxKey =>
              have hlive := hcurrent pxKey hcase
              have hne : pxKey ≠ pxNewKey := by
                rintro rfl
                rw [hfree] at hlive
                cases hlive
              simp only [prvFreeKey, Function.update_of_ne hne, hlive, if_true]
              exact .replace hcase hlive hfree rfl rfl rfl
        next => exact discard_key_effect hcurrent hfree _

/-- `C_FindObjects`. -/
theorem find_objects_effect (hcurrent : CurrentLive session keys) (pxObject pulObjectCount : Bool)
    (ulMaxObjectCount : Nat) (o : LoadOutcomes)
    (hfree : ∀ block, o.allocated = some block → keys block.1 = none) :
    KeyEffect session keys
      (cFindObjects pxObject pulObjectCount ulMaxObjectCount o session keys) := by
  have hobjects : ∀ {keys}, CurrentLive session keys →
      KeyEffect session keys (returnObjects session keys []) :=
    fun hcurrent => .uses hcurrent rfl rfl (.other rfl)
  unfold cFindObjects
  split
  next => exact .done hcurrent rfl
  next =>
    split
    next => exact .done hcurrent rfl
    next =>
      split
      next => exact .done hcurrent rfl
      next =>
        split
        next => exact .uses hcurrent rfl rfl (.other rfl)
        next =>
          split
          next hnone =>
            have hnone : session.pxCurrentKey = none := Option.isNone_iff_eq_none.mp hnone
            simp only [prvLoadAndInitializeDefaultCertificateAndKey, prvInitializeKey, hnone]
            cases hallocated : o.allocated with
            | none => exact .done hcurrent rfl
            | some block =>
                have hfree := hfree block hallocated
                simp only
                split
                next => exact .attach hnone hfree rfl rfl rfl
                next => exact .attach hnone hfree rfl rfl rfl
          next => exact hobjects hcurrent

/-! ## Calls -/

/-- The call does not destroy a generated key. -/
def SessionCall.KeepsKey : SessionCall → Prop
  | .destroyObject xObject => ¬ IsKeyPointer xObject
  | _ => True

instance : DecidablePred SessionCall.KeepsKey
  | .destroyObject xObject => inferInstanceAs (Decidable (¬ IsKeyPointer xObject))
  | .createObject _ _ _ | .getAttributeValue _ _ _ | .findObjectsInit _ | .findObjects _ _ _ _
  | .findObjectsFinal | .digestInit _ _ | .digestUpdate _ _ | .digestFinal _ _ _ | .signInit _
  | .sign _ _ _ _ | .verifyInit _ | .verify _ _ _ | .generateKeyPair _ _ => isTrue trivial

/-- What a call does to key structures. -/
theorem SessionCall.key_effect {call : SessionCall} (hkeeps : call.KeepsKey)
    (hcurrent : CurrentLive session keys)
    (hfree : ∀ pxKey, call.allocated = some pxKey → keys pxKey = none) :
    KeyEffect session keys (call.execute session keys) := by
  cases call with
  | createObject pxTemplate pxObject o => exact create_object_effect hcurrent _ _ _
  | destroyObject xObject =>
      show KeyEffect session keys (cDestroyObject xObject session keys)
      unfold cDestroyObject
      rw [if_neg hkeeps]
      exact .done hcurrent rfl
  | getAttributeValue xObject bitlen pxTemplate => exact get_attribute_value_effect hcurrent _ _ _
  | findObjectsInit pxTemplate => cases pxTemplate <;> exact .done hcurrent rfl
  | findObjects pxObject pulObjectCount ulMaxObjectCount o =>
      refine find_objects_effect hcurrent _ _ _ _ fun block hblock => hfree block.1 ?_
      show o.allocated.map Prod.fst = _
      rw [hblock]
      rfl
  | findObjectsFinal =>
      show KeyEffect session keys (cFindObjectsFinal session keys)
      unfold cFindObjectsFinal
      split <;> exact .done hcurrent rfl
  | digestInit mechanism started =>
      show KeyEffect session keys (cDigestInit mechanism started session keys)
      unfold cDigestInit
      split_ifs <;> exact .done hcurrent rfl
  | digestUpdate pPart updated =>
      show KeyEffect session keys (cDigestUpdate pPart updated session keys)
      unfold cDigestUpdate
      split_ifs <;> exact .done hcurrent rfl
  | digestFinal pDigest pulDigestLen finished =>
      show KeyEffect session keys (cDigestFinal pDigest pulDigestLen finished session keys)
      unfold cDigestFinal
      split_ifs <;>
        first | exact .done hcurrent rfl | exact .uses hcurrent rfl rfl (.other rfl)
  | signInit pxMechanism => exact .done hcurrent rfl
  | sign pulSignatureLen pucSignature ulDataLen signed =>
      show KeyEffect session keys
        (cSign pulSignatureLen pucSignature ulDataLen signed session keys)
      unfold cSign
      split
      next => exact .done hcurrent rfl
      next =>
        split
        next => exact .uses hcurrent rfl rfl (.other rfl)
        next =>
          split
          next => exact .done hcurrent rfl
          next => exact follow_key_effect hcurrent _
  | verifyInit pxMechanism => exact .done hcurrent rfl
  | verify pucData pucSignature verified =>
      show KeyEffect session keys (cVerify pucData pucSignature verified session keys)
      unfold cVerify
      split
      next => exact .done hcurrent rfl
      next =>
        split
        next => exact .done hcurrent rfl
        next => exact follow_key_effect hcurrent _
  | generateKeyPair arguments o => exact generate_key_pair_effect hcurrent _ _ hfree

/-! ## Every run -/

/-- Every key structure on the heap is the current key of one open session. -/
structure Owned (c : Cryptoki) (live : List Nat) : Prop where
  tracks : Tracks live c.keys
  current : ∀ xSession session, c.sessions xSession = some session → CurrentLive session c.keys
  unique : ∀ xSession xSession' session session' pxKey, c.sessions xSession = some session →
    c.sessions xSession' = some session' → session.pxCurrentKey = some pxKey →
      session'.pxCurrentKey = some pxKey → xSession = xSession'
  covered : ∀ pxKey, (c.keys pxKey).isSome →
    ∃ xSession session, c.sessions xSession = some session ∧ session.pxCurrentKey = some pxKey

variable {c c' : Cryptoki} {xSession : Nat}

theorem Owned.initial : Owned .initial [] := by
  refine ⟨⟨List.nodup_nil, fun pxKey => ?_⟩, ?_, ?_, ?_⟩
  · exact ⟨fun hmem => absurd hmem List.not_mem_nil, fun hlive => by cases hlive⟩
  · exact fun _ _ hsession => by cases hsession
  · exact fun _ _ _ _ _ hsession => by cases hsession
  · exact fun _ hlive => by cases hlive

/-- A session is opened. -/
theorem Owned.open_session (h : Owned c live) (hfree : c.sessions xSession = none) :
    Owned { c with sessions := Function.update c.sessions xSession (some .opened) } live := by
  have hbefore : ∀ {other session pxKey},
      Function.update c.sessions xSession (some .opened) other = some session →
        session.pxCurrentKey = some pxKey → c.sessions other = some session := by
    intro other session pxKey hsession hkey
    by_cases heq : other = xSession
    · subst heq
      rw [Function.update_self] at hsession
      cases hsession
      cases hkey
    · rwa [Function.update_of_ne heq] at hsession
  constructor
  · exact h.tracks
  · exact fun other session hsession pxKey hkey =>
      h.current other session (hbefore hsession hkey) pxKey hkey
  · exact fun other other' session session' pxKey hsession hsession' hkey hkey' =>
      h.unique other other' session session' pxKey (hbefore hsession hkey)
        (hbefore hsession' hkey') hkey hkey'
  · intro pxKey hlive
    obtain ⟨other, session, hsession, hkey⟩ := h.covered pxKey hlive
    have hne : other ≠ xSession := by
      rintro rfl
      rw [hfree] at hsession
      cases hsession
    exact ⟨other, session, (Function.update_of_ne hne _ _).trans hsession, hkey⟩

/-- `C_OpenSession`. -/
theorem Owned.open_call (h : Owned c live) (pxSession serialSession : Bool) {allocated : Option Nat}
    (seeded : Bool) (hfree : ∀ xSession ∈ allocated, c.sessions xSession = none) :
    keyActions (cOpenSession pxSession serialSession allocated seeded c).2 = [] ∧
      Owned (cOpenSession pxSession serialSession allocated seeded c).1 live := by
  unfold cOpenSession
  split
  next => exact ⟨rfl, h⟩
  next =>
    split
    next => exact ⟨rfl, h⟩
    next =>
      split
      next => exact ⟨rfl, h⟩
      next xSession =>
        split
        next => exact ⟨rfl, h.open_session (hfree xSession rfl)⟩
        next => exact ⟨rfl, h⟩

/-- The key of another session is neither the old nor the new key of this one. -/
theorem Owned.other_session {other : Nat} {session' : P11Session} (h : Owned c live)
    (hsession : c.sessions xSession = some session) (heffect : KeyEffect session c.keys reply)
    (hne : other ≠ xSession) (hsession' : c.sessions other = some session')
    (hkey : session'.pxCurrentKey = some pxKey) :
    session.pxCurrentKey ≠ some pxKey ∧ reply.session.pxCurrentKey ≠ some pxKey ∧
      reply.keys pxKey = c.keys pxKey := by
  have hold : session.pxCurrentKey ≠ some pxKey := fun hsame =>
    hne (h.unique other xSession session' session pxKey hsession' hsession hkey hsame)
  have hnew : reply.session.pxCurrentKey ≠ some pxKey := by
    intro hsame
    rcases heffect.fresh pxKey hsame with hsame' | hnone
    · exact hold hsame'
    · have hlive := h.current other session' hsession' pxKey hkey
      rw [hnone] at hlive
      cases hlive
  exact ⟨hold, hnew, heffect.others pxKey hold hnew⟩

/-- The sessions after a call on one of them. -/
theorem sessions_after {other : Nat} {session' after : P11Session}
    (hsessions : c'.sessions = Function.update c.sessions xSession (some after))
    (hsession' : c'.sessions other = some session') :
    other = xSession ∧ session' = after ∨ other ≠ xSession ∧ c.sessions other = some session' := by
  rw [hsessions] at hsession'
  by_cases heq : other = xSession
  · subst heq
    rw [Function.update_self] at hsession'
    exact .inl ⟨rfl, (Option.some.inj hsession').symm⟩
  · rw [Function.update_of_ne heq] at hsession'
    exact .inr ⟨heq, hsession'⟩

/-- A call changes the keys of its session only. -/
theorem Owned.call_session (h : Owned c live) (hsession : c.sessions xSession = some session)
    (heffect : KeyEffect session c.keys reply) (hkeys : c'.keys = reply.keys)
    (hsessions : c'.sessions = Function.update c.sessions xSession (some reply.session)) :
    Safe live (keyActions reply.outputs) ∧
      Owned c' (remaining live (keyActions reply.outputs)) := by
  obtain ⟨hsafe, htracks⟩ := heffect.tracks live h.tracks
  refine ⟨hsafe, hkeys ▸ htracks, ?_, ?_, ?_⟩
  · intro other session' hsession' pxKey hkey
    rw [hkeys]
    rcases sessions_after hsessions hsession' with ⟨rfl, rfl⟩ | ⟨hne, hsession'⟩
    · exact heffect.current pxKey hkey
    · rw [(h.other_session hsession heffect hne hsession' hkey).2.2]
      exact h.current other session' hsession' pxKey hkey
  · intro other other' first second pxKey hfirst hsecond hkey hkey'
    rcases sessions_after hsessions hfirst with ⟨rfl, rfl⟩ | ⟨hne, hfirst⟩ <;>
      rcases sessions_after hsessions hsecond with ⟨rfl, rfl⟩ | ⟨hne', hsecond⟩
    · rfl
    · exact absurd hkey (h.other_session hsession heffect hne' hsecond hkey').2.1
    · exact absurd hkey' (h.other_session hsession heffect hne hfirst hkey).2.1
    · exact h.unique other other' first second pxKey hfirst hsecond hkey hkey'
  · intro pxKey hlive
    rw [hkeys] at hlive
    rw [hsessions]
    by_cases hnew : reply.session.pxCurrentKey = some pxKey
    · exact ⟨xSession, reply.session, Function.update_self _ _ _, hnew⟩
    have hold : session.pxCurrentKey ≠ some pxKey := by
      intro hold
      rw [heffect.dropped pxKey hold hnew] at hlive
      cases hlive
    rw [heffect.others pxKey hold hnew] at hlive
    obtain ⟨other, session', hsession', hkey⟩ := h.covered pxKey hlive
    have hne : other ≠ xSession := by
      rintro rfl
      rw [hsession] at hsession'
      cases hsession'
      exact hold hkey
    exact ⟨other, session', (Function.update_of_ne hne _ _).trans hsession', hkey⟩

/-- The sessions that are left after one is closed. -/
theorem sessions_left {sessions : Nat → Option P11Session} {other : Nat} {session' : P11Session}
    (hsession' : Function.update sessions xSession none other = some session') :
    other ≠ xSession ∧ sessions other = some session' := by
  by_cases heq : other = xSession
  · subst heq
    rw [Function.update_self] at hsession'
    cases hsession'
  · rw [Function.update_of_ne heq] at hsession'
    exact ⟨heq, hsession'⟩

/-- A session is closed. -/
theorem Owned.close_session (h : Owned c live) (hsession : c.sessions xSession = some session) :
    Safe live (keyActions (cCloseSession xSession session c).2) ∧
      Owned (cCloseSession xSession session c).1
        (remaining live (keyActions (cCloseSession xSession session c).2)) := by
  unfold cCloseSession
  cases hkey : session.pxCurrentKey with
  | none =>
      refine ⟨trivial, h.tracks, fun other session' hsession' => ?_, ?_, fun pxKey hlive => ?_⟩
      · exact h.current other session' (sessions_left hsession').2
      · exact fun other other' first second pxKey hfirst hsecond =>
          h.unique other other' first second pxKey (sessions_left hfirst).2
            (sessions_left hsecond).2
      · obtain ⟨other, session', hsession', hkey'⟩ := h.covered pxKey hlive
        have hne : other ≠ xSession := by
          rintro rfl
          rw [hsession] at hsession'
          cases hsession'
          rw [hkey] at hkey'
          cases hkey'
        exact ⟨other, session', (Function.update_of_ne hne _ _).trans hsession', hkey'⟩
  | some pxKey =>
      have hlive := h.current xSession session hsession pxKey hkey
      have hmem : pxKey ∈ live := (h.tracks.mem_iff pxKey).mpr hlive
      -- No other session has the key that is freed.
      have hother : ∀ {other session'}, other ≠ xSession → c.sessions other = some session' →
          session'.pxCurrentKey ≠ some pxKey := fun hne hsession' hkey' =>
        hne (h.unique _ xSession _ session pxKey hsession' hsession hkey' hkey)
      simp only [prvFreeKey, hlive, if_true]
      refine ⟨⟨hmem, hmem, trivial⟩, h.tracks.release, ?_, ?_, fun other hlive' => ?_⟩
      · intro other session' hsession' pxKey' hkey'
        obtain ⟨hne, hbefore'⟩ := sessions_left hsession'
        have hne' : pxKey' ≠ pxKey := by
          rintro rfl
          exact hother hne hbefore' hkey'
        show (Function.update c.keys pxKey none pxKey').isSome
        rw [Function.update_of_ne hne']
        exact h.current other session' hbefore' pxKey' hkey'
      · exact fun other other' first second pxKey' hfirst hsecond =>
          h.unique other other' first second pxKey' (sessions_left hfirst).2
            (sessions_left hsecond).2
      · have hlive' : (Function.update c.keys pxKey none other).isSome := hlive'
        have hne : other ≠ pxKey := by
          rintro rfl
          rw [Function.update_self] at hlive'
          cases hlive'
        rw [Function.update_of_ne hne] at hlive'
        obtain ⟨owner, session', hsession', hkey'⟩ := h.covered other hlive'
        have howner : owner ≠ xSession := by
          rintro rfl
          rw [hsession] at hsession'
          cases hsession'
          exact hne (Option.some.inj (hkey'.symm.trans hkey))
        exact ⟨owner, session', (Function.update_of_ne howner _ _).trans hsession', hkey'⟩

/-- The call does not destroy a generated key. -/
def Call.KeepsKeys : Call → Prop
  | .onSession _ call => call.KeepsKey
  | _ => True

instance : DecidablePred Call.KeepsKeys
  | .onSession _ call => inferInstanceAs (Decidable call.KeepsKey)
  | .openSession _ _ _ _ | .closeSession _ => isTrue trivial

/-- A call that does not destroy a generated key. -/
def keepingStep (c : Cryptoki) (call : Call) : Option (Cryptoki × List Output) :=
  if call.KeepsKeys then step c call else none

/-- Runs in which no generated key is destroyed. -/
def KeepingExecutes (c : Cryptoki) (labels : List Output) (c' : Cryptoki) : Prop :=
  ∃ call, keepingStep c call = some (c', labels)

theorem KeepingExecutes.owned {labels : List Output} (h : Owned c live)
    (hexecutes : KeepingExecutes c labels c') :
    Safe live (keyActions labels) ∧ Owned c' (remaining live (keyActions labels)) := by
  obtain ⟨call, hexecutes⟩ := hexecutes
  unfold keepingStep at hexecutes
  split_ifs at hexecutes with hkeeps
  have hstep := hexecutes
  unfold step at hstep
  split at hstep
  · cases hstep
  cases call with
  | openSession pxSession serialSession allocated seeded =>
      simp only at hstep
      split at hstep
      next hfree =>
        obtain ⟨hnone, howned⟩ := h.open_call pxSession serialSession seeded
          fun xSession hmem => (hfree xSession hmem).1
        rw [Option.some.inj hstep] at hnone howned
        rw [hnone]
        exact ⟨trivial, howned⟩
      next => cases hstep
  | closeSession xSession =>
      simp only at hstep
      split at hstep
      · cases hstep
        exact ⟨trivial, h⟩
      · obtain ⟨session, hsession, heq⟩ := Option.map_eq_some_iff.mp hstep
        have hclose := h.close_session hsession
        rw [heq] at hclose
        exact hclose
  | onSession xSession call =>
      simp only at hstep
      split at hstep
      next hallowed =>
        obtain ⟨session, hsession, heq⟩ := Option.map_eq_some_iff.mp hstep
        cases heq
        have heffect := call.key_effect hkeeps (h.current xSession session hsession)
          fun pxKey hallocated => (hallowed.1 pxKey hallocated).1
        have hlast : keyActions [(call.execute session c.keys).final] = [] := by
          unfold Reply.final
          cases (call.execute session c.keys).result <;> rfl
        rw [key_actions_append, hlast, List.append_nil]
        exact h.call_session hsession heffect rfl rfl
      next => cases hstep

/-- In every run in which no generated key is destroyed, key structures are used and freed only
while they are allocated and not yet freed, and what is not freed at the end is the current key of
an open session. -/
theorem key_structures_freed {labels : List Output} {c : Cryptoki}
    (hrun : Steps KeepingExecutes .initial labels c) :
    Safe [] (keyActions labels) ∧
      ∀ pxKey ∈ remaining [] (keyActions labels), ∃ xSession session,
        c.sessions xSession = some session ∧ session.pxCurrentKey = some pxKey := by
  obtain ⟨hsafe, howned⟩ := safe_of_steps Output.keyAction Owned
    (fun h hexecutes => hexecutes.owned h) hrun .initial
  exact ⟨hsafe, fun pxKey hmem => howned.covered pxKey ((howned.tracks.mem_iff pxKey).mp hmem)⟩

/-- A call that generates a key at an address. -/
def generateAt (pxKey : Nat) : SessionCall :=
  .generateKeyPair
    ⟨ckmEcKeyPairGen, ckaKeyType, ckkEc, ckaKeyType, ckaEcParams, "1.2.840.10045.3.1.7"⟩
    ⟨some pxKey, .ok ⟨.ecdsa, 0⟩, true⟩

/-- A session with two keys, one after the other. -/
def generatedTwice : List Call :=
  [.openSession true true (some 8) true, .onSession 8 (generateAt 16),
    .onSession 8 (generateAt 32), .closeSession 8]

theorem key_structures_freed_twice_generated :
    ∃ labels c, Steps KeepingExecutes .initial labels c ∧ Safe [] (keyActions labels) ∧
      (keyActions labels).count (.release 16) = 1 ∧
        (keyActions labels).count (.release 32) = 1 := by
  have hrun : ((replay keepingStep generatedTwice .initial).any fun last =>
      decide ((keyActions last.2).count (.release 16) = 1) &&
        decide ((keyActions last.2).count (.release 32) = 1)) = true := by
    decide +kernel
  obtain ⟨⟨c, labels⟩, hlast, hcheck⟩ := (Option.any_eq_true _ _).mp hrun
  obtain ⟨hfirst, hsecond⟩ := Bool.and_eq_true_iff.mp hcheck
  have hsteps : Steps KeepingExecutes .initial labels c := steps_of_replay hlast
  exact ⟨labels, c, hsteps, (key_structures_freed hsteps).1, of_decide_eq_true hfirst,
    of_decide_eq_true hsecond⟩

/-- A generated key is destroyed, and then its session is closed. -/
def destroyedKey : List Call :=
  [.openSession true true (some 8) true, .onSession 8 (generateAt 16),
    .onSession 8 (.destroyObject 16), .closeSession 8]

/-- The key is used and freed again after it has been freed. -/
theorem destroyed_key_freed_twice :
    ∃ labels c, Steps Executes .initial labels c ∧ ¬ Safe [] (keyActions labels) ∧
      (keyActions labels).count (.acquire 16) = 1 ∧
        (keyActions labels).count (.release 16) = 2 := by
  have hrun : ((replay step destroyedKey .initial).any fun last =>
      decide (¬ Safe [] (keyActions last.2)) &&
        (decide ((keyActions last.2).count (.acquire 16) = 1) &&
          decide ((keyActions last.2).count (.release 16) = 2))) = true := by
    decide +kernel
  obtain ⟨⟨c, labels⟩, hlast, hcheck⟩ := (Option.any_eq_true _ _).mp hrun
  obtain ⟨hviolated, hcheck⟩ := Bool.and_eq_true_iff.mp hcheck
  obtain ⟨hacquired, hreleased⟩ := Bool.and_eq_true_iff.mp hcheck
  exact ⟨labels, c, steps_of_replay hlast, of_decide_eq_true hviolated,
    of_decide_eq_true hacquired, of_decide_eq_true hreleased⟩

end TivaAws.Pkcs11
