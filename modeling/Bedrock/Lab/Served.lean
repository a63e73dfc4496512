import Bedrock.GetRandom
import Bedrock.Injection
import Bedrock.IoResponse
import Bedrock.Lab.Inputs
import Bedrock.Noted
import Bedrock.RunIoctl

/-!
# What the guest is served

Randomness reaches the guest when RDRAND, RDSEED or GET_RANDOM is handled, and is noted in
the event stream there and then.  An I/O request is noted when the guest is interrupted
for it, and reaches the guest when it asks for it with GET_REQUEST.  This module says for
each iteration of the run loop what is served and what is noted.
-/

namespace Bedrock

open List EventKind Event Part Lab VmContext GuestState PendingIoAction

open Support Lab VmContext Bedrock.Part EventStream Program Overlooks IoChannelState VmStep

def IoInput.request (input : IoInput) : IoRequest :=
  ⟨input.target, input.command, input.recordOutput⟩

namespace Lab

theorem splitRandomPayload_randomPayload (value : UInt64) (pid : UInt32) (source : RandomSource)
    (width : UInt8) (bytes : List UInt8) :
    splitRandomPayload (randomPayload value pid source width bytes) =
      some (⟨value, pid, source.asU8, width⟩, bytes) := by
  have hvalue : value.toNat < 256 ^ 8 := value.toNat_lt
  have hpid : pid.toNat < 256 ^ 4 := pid.toNat_lt
  have hpad : takeField 2 (0 :: 0 :: bytes) = some (0, bytes) :=
    takeField_append (show [(0 : UInt8), 0].length = 2 from rfl) bytes
  simp only [splitRandomPayload, randomPayload, append_assoc, cons_append,
    nil_append, takeField_leBytes hvalue, takeField_leBytes hpid, takeField_cons, hpad,
    Option.bind_eq_bind, Option.bind_some, UInt64.ofNat_toNat, UInt32.ofNat_toNat,
    UInt8.ofNat_toNat]

theorem splitIoChannelPayload_ioChannelPayload (phase : IoChannelPhase) (targetTsc : Nat)
    (bytes : List UInt8) : splitIoChannelPayload (ioChannelPayload phase targetTsc bytes) =
      some (⟨phase.asU8, .ofNat (ofLeBytes (leBytes 8 targetTsc))⟩, bytes) := by
  have hpad : ∀ rest, takeField 7 (List.replicate 7 0 ++ rest) =
      some (ofLeBytes (List.replicate 7 0), rest) :=
    takeField_append (length_replicate ..)
  have htarget : ∀ rest, takeField 8 (leBytes 8 targetTsc ++ rest) =
      some (ofLeBytes (leBytes 8 targetTsc), rest) :=
    takeField_append (leBytes_length 8 targetTsc)
  simp only [splitIoChannelPayload, ioChannelPayload, append_assoc, cons_append,
    takeField_cons, hpad, htarget, Option.bind_eq_bind, Option.bind_some, UInt8.ofNat_toNat]

theorem randomSourceFromU8_asU8 (source : RandomSource) :
    randomSourceFromU8 source.asU8 = source := by
  cases source <;> rfl

theorem event_of_ne_randomness {r : EventRecord} (h : r.kind ≠ randomness.asU16)
    (p : RandomPayload) (bytes : List UInt8) : event r ≠ .randomness p bytes := by
  unfold event
  rw [if_neg h]
  repeat' split
  all_goals exact nofun

theorem event_of_ne_ioChannel {r : EventRecord} (h : r.kind ≠ ioChannel.asU16)
    (p : IoChannelPayload) (data : List UInt8) : event r ≠ .ioChannel p data := by
  unfold event
  rw [if_neg h]
  repeat' split
  all_goals exact nofun

def randomReading (freq : Nat) : Reading RandomInput where
  kind := .randomness
  keep := randomInput freq
  only r h := by
    unfold randomInput
    split
    · rename_i p bytes hevent
      exact absurd hevent (event_of_ne_randomness h p bytes)
    · rfl
  unnumbered _ _ := rfl
  notExit := randomness_ne_exit

def ioReading (freq : Nat) : Reading IoRequest where
  kind := .ioChannel
  keep r := (ioInput freq r).map IoInput.request
  only r h := by
    unfold ioInput
    split
    · rename_i p data hevent
      exact absurd hevent (event_of_ne_ioChannel h p data)
    · rfl
  unnumbered _ _ := rfl
  notExit := by decide

theorem randomReading_event (freq : Nat) (flags : UInt16) (tsc realTsc : UInt64) (value : UInt64)
    (pid : UInt32) (source : RandomSource) (width : UInt8) (bytes : List UInt8) :
    (randomReading freq).event
        ⟨.randomness, flags, tsc, realTsc, randomPayload value pid source width bytes⟩ =
      some (if source = .getRandom then ⟨fromInstructions tsc freq, source, pid, bytes⟩
        else ⟨fromInstructions tsc freq, source, 0, leBytes 8 value.toNat⟩) := by
  have hevent : event ⟨0, tsc, realTsc, EventKind.randomness.asU16, flags,
      randomPayload value pid source width bytes⟩ =
        .randomness ⟨value, pid, source.asU8, width⟩ bytes := by
    unfold event
    rw [if_pos rfl, splitRandomPayload_randomPayload]
  unfold Reading.event randomReading randomInput Event.record
  dsimp only
  rw [hevent]
  dsimp only
  rw [randomSourceFromU8_asU8]
  split_ifs
  · rfl
  · rfl

theorem ioReading_event (freq : Nat) (flags : UInt16) (tsc realTsc : UInt64)
    (phase : IoChannelPhase) (targetTsc : Nat) (bytes : List UInt8) :
    (ioReading freq).event
        ⟨.ioChannel, flags, tsc, realTsc, ioChannelPayload phase targetTsc bytes⟩ =
      if phase = .request then decodeRequest bytes else none := by
  have hevent : ∃ target, event ⟨0, tsc, realTsc, EventKind.ioChannel.asU16, flags,
      ioChannelPayload phase targetTsc bytes⟩ = .ioChannel ⟨phase.asU8, target⟩ bytes := by
    have hkind : EventKind.ioChannel.asU16 ≠ EventKind.randomness.asU16 := by decide
    unfold event
    rw [if_neg hkind, if_pos rfl, splitIoChannelPayload_ioChannelPayload]
    exact ⟨_, rfl⟩
  obtain ⟨target, hevent⟩ := hevent
  unfold Reading.event ioReading ioInput Event.record
  dsimp only
  rw [hevent]
  dsimp only
  cases phase with
  | response => rfl
  | request =>
    rw [if_pos rfl, if_pos rfl, Option.map_map]
    exact Option.map_id'

end Lab

/-! ## The staged reply -/

def VmContext.ReplyFits (ctx : VmContext) : Prop :=
  ctx.state.guest.devices.random.reply.length ≤ RANDOM_REPLY_MAX

def KeepsReply (before after : VmContext) : Prop :=
  before.ReplyFits → after.ReplyFits

theorem KeepsReply.of_random {before after : VmContext}
    (h : random.get after = random.get before) : KeepsReply before after := by
  intro hfits
  have hsame : after.state.guest.devices.random = before.state.guest.devices.random := h
  unfold ReplyFits
  rw [hsame]
  exact hfits

theorem KeepsReply.of_built {ε α : Type} {m : Program ε VmContext α}
    (h : Obeys KeepsReply m) (ctx : VmContext) : KeepsReply ctx (m ctx).2 :=
  h.keeping (fun _ => id) (fun hab hbc hfits => hbc (hab hfits)) ctx

instance (priority := low) {ε α : Type} {m : Program ε VmContext α}
    [h : Built (Framed .random HandlerAction) m] : Obeys KeepsReply m :=
  h.mono fun _ hf ctx => .of_random (hf.2 ctx)

theorem KeepsReply.modifyDevices {f : RandomState → RandomState}
    (h : ∀ random, (f random).reply = random.reply ∨ (f random).reply = []) :
    Obeys KeepsReply
      (modifyDevices fun dev => { dev with random := f dev.random } : Handler Unit) := by
  refine .act fun ctx hfits => ?_
  have hreply := h ctx.state.guest.devices.random
  have hnext : (f ctx.state.guest.devices.random).reply.length ≤ RANDOM_REPLY_MAX := by
    rcases hreply with hsame | hnone
    · rw [hsame]
      exact hfits
    · rw [hnone]
      exact Nat.zero_le _
  exact hnext

theorem RandomState.fill_reply (rounds len : Nat) (random : RandomState) :
    (random.fill rounds len).2.reply = random.reply := by
  induction rounds generalizing len random with
  | zero => rfl
  | succ rounds ih =>
    unfold fill
    split
    · rfl
    · exact ih _ _

theorem RandomState.generate_reply (random : RandomState) :
    random.generate.2.reply = random.reply := by
  unfold generate
  cases random.mode
  · rfl
  · rfl

theorem handleRandom_keepsReply (source : RandomSource) (ctx : VmContext) :
    KeepsReply ctx (handleRandom source ctx).2 := by
  have hgenerate := KeepsReply.modifyDevices (f := fun random => random.generate.2)
    fun random => .inl random.generate_reply
  have : random.Other .stackPointer := ⟨by decide⟩
  refine .of_built ?_ ctx
  unfold handleRandom
  refine .bind inferInstance fun raw => .bind inferInstance fun g => ?_
  dsimp only
  split
  · infer_instance
  · refine .bind hgenerate fun _ => ?_
    cases g.devices.random.generate.1 <;> infer_instance

variable (ctx : VmContext)

theorem vmcallGetRandom_keepsReply : KeepsReply ctx (vmcallGetRandom ctx).2 := by
  have hfill : ∀ cap, Obeys KeepsReply (modifyDevices fun dev =>
      { dev with random := (dev.random.fill cap cap).2 } : Handler Unit) :=
    fun cap => KeepsReply.modifyDevices fun random => .inl (random.fill_reply cap cap)
  have hbegin : ∀ gva cap pid, Obeys KeepsReply (modifyDevices fun dev =>
      { dev with random := dev.random.beginRequest gva cap pid } : Handler Unit) :=
    fun gva cap pid =>
      KeepsReply.modifyDevices (f := fun random => random.beginRequest gva cap pid) fun _ => .inr rfl
  have hclear : Obeys KeepsReply clearRandomRequest :=
    KeepsReply.modifyDevices fun _ => .inr rfl
  have hseeded : ∀ gva cap pid,
      Obeys KeepsReply (getRandomSeeded gva cap pid) := by
    intro gva cap pid
    unfold getRandomSeeded
    infer_instance
  have hstaged : ∀ random, Obeys KeepsReply (getRandomStaged random) := by
    intro random
    unfold getRandomStaged
    infer_instance
  refine .of_built ?_ ctx
  unfold vmcallGetRandom
  infer_instance

theorem KeepsReply.frames : Frames KeepsReply where
  refl _ := id
  trans hab hbc hfits := hbc (hab hfits)
  events h := .of_random (random.get_of_untouched h.untouched)
  interceptPf _ := id
  trapFlag ctx := .of_random (random.get_of_untouched ctx.updateMtfState_untouched)
  begin _ _ := id

theorem VmContext.leave_keepsReply : KeepsReply ctx ctx.leave.2 := by
  refine KeepsReply.frames.leave (fun reason qual ctx => ?_) ctx
  by_cases htouched : random.touchedBy reason
  · rcases htouched with rfl | rfl | rfl
    · have hkeeps := handleRandom_keepsReply .rdrand ctx
      rwa [← call_state] at hkeeps
    · have hkeeps := handleRandom_keepsReply .rdseed ctx
      rwa [← call_state] at hkeeps
    · by_cases hrax : ctx.state.guest.gprs.rax.toNat = 11
      · have hkeeps := vmcallGetRandom_keepsReply ctx
        rwa [← handleVmcall_getRandom hrax, ← call_state] at hkeeps
      · have hkeeps : KeepsReply ctx (handleVmcall ctx).2 := .of_random (get_handleVmcall hrax)
        rwa [← call_state] at hkeeps
  · exact .of_random (get_dispatch htouched qual ctx)

theorem VmContext.ioctl_keepsReply (call : Ioctl) : KeepsReply ctx (ctx.ioctl call).2 := by
  intro hfits
  have heffect := ctx.ioctl_effect call
  generalize (ctx.ioctl call).2 = after at heffect ⊢
  cases heffect with
  | rdrandConfigured config mode => exact Nat.zero_le _
  | randomBytes bytes => exact length_take_le _ _
  | _ => exact hfits

theorem VmStep.Valid.keepsReply {t : VmStep} (h : t.Valid) : KeepsReply t.pre t.post := by
  cases h with
  | @iterate it hit =>
    have henter := random.get_enter it.start it.how
    have hleave := it.exited.leave_keepsReply
    rw [hit.enter] at henter
    rw [hit.leave] at hleave
    exact fun hfits =>
      hleave (KeepsReply.of_random ((get_of_ran hit.ran (by decide)).trans henter) hfits)
  | abort ctx how point => exact .of_random (random.get_abort ctx how point)
  | ioctl ctx call => exact ctx.ioctl_keepsReply call
  | store hstores => exact id
  | fork hfork => exact .of_random (get_fork hfork (by decide))

/-! ## Randomness -/

theorem randomPayload_length (value : UInt64) (pid : UInt32) (source : RandomSource)
    (width : UInt8) (bytes : List UInt8) :
    (randomPayload value pid source width bytes).length = 16 + bytes.length := by
  simp only [randomPayload, length_append, length_cons, length_nil, leBytes_length]

def Lab.RandomInput.payloadLength (input : RandomInput) : Nat :=
  if input.source = .getRandom then 16 + input.bytes.length else 16

variable {bytes : List UInt8}

namespace VmContext

def drawn (ctx : VmContext) (freq : Nat) (source : RandomSource) : List RandomInput :=
  let random := ctx.state.guest.devices.random
  if (ctx.state.vmcs.fields.read .vmExitInstructionInfo).isOk = true ∧
      random.needsRdrandExit = false then
    random.generate.1.toList.map fun v =>
      ⟨fromInstructions ctx.stamp freq, source, 0, leBytes 8 v.toNat⟩
  else []

def written (ctx : VmContext) (freq : Nat) (gva : UInt64) (pid : UInt32) (bytes : List UInt8) :
    List RandomInput :=
  if (writeGuestBytes bytes.length gva bytes ctx).1.isOk = true then
    [⟨fromInstructions ctx.stamp freq, .getRandom, pid, bytes⟩]
  else []

theorem written_of_ok {ctx stored : VmContext} {gva : UInt64} {u : Unit}
    (h : writeGuestBytes bytes.length gva bytes ctx = (.ok u, stored)) (freq : Nat) (pid : UInt32) :
    ctx.written freq gva pid bytes =
      [⟨fromInstructions ctx.stamp freq, .getRandom, pid, bytes⟩] := by
  unfold written
  rw [h]
  rfl

theorem written_of_error {ctx stored : VmContext} {gva : UInt64}
    {failure : WriteGuest} (h : writeGuestBytes bytes.length gva bytes ctx = (.error failure, stored))
    (freq : Nat) (pid : UInt32) : ctx.written freq gva pid bytes = [] := by
  unfold written
  rw [h]
  rfl

def handed (ctx : VmContext) (freq : Nat) : List RandomInput :=
  let g := ctx.state.guest
  let random := g.devices.random
  let cap := min g.gprs.rcx.toNat RANDOM_REPLY_MAX
  if random.mode = .seededRng then
    match ensureGuestWritable g.gprs.rbx cap ctx with
    | (.error _, _) => []
    | (.ok _, writable) =>
      let random := writable.state.guest.devices.random
      (writable.modifyRandom fun random => (random.fill cap cap).2).written freq g.gprs.rbx
        g.gprs.rdx.toUInt32 (random.fill cap cap).1
  else if random.needsGetRandomExit = true then []
  else
    let bytes := random.reply.take random.reqLen
    match ensureGuestWritable random.bufGva bytes.length ctx with
    | (.error _, _) => []
    | (.ok _, writable) => writable.written freq random.bufGva random.pid bytes

/-- The randomness the handler of an exit serves to the guest. -/
def servedBy (ctx : VmContext) (freq : Nat) : ExitReason → List RandomInput
  | .rdrand => ctx.drawn freq .rdrand
  | .rdseed => ctx.drawn freq .rdseed
  | .vmcall => if ctx.state.guest.gprs.rax.toNat = 11 then ctx.handed freq else []
  | _ => []

def givenRandom (ctx : VmContext) (freq : Nat) : List RandomInput :=
  match ctx.exitInfo with
  | .error _ => []
  | .ok (reason, qual) =>
    (ctx.beginExit (!ctx.state.nonDeterministicExit reason qual)).servedBy freq reason

def SavesRandom (ctx : VmContext) (freq : Nat) : Prop :=
  ∀ input ∈ ctx.givenRandom freq,
    ctx.state.events.Saves (randomReading freq) input.payloadLength

end VmContext

section Random

variable {freq : Nat}

instance : Fact (inject ≠ (randomReading freq).kind) :=
  ⟨nofun⟩

instance : Fact (serial ≠ (randomReading freq).kind) :=
  ⟨nofun⟩

instance : Fact (EventKind.ioChannel ≠ (Lab.randomReading freq).kind) :=
  ⟨nofun⟩

theorem appendRandom_notes (value : UInt64) (pid : UInt32)
    (source : RandomSource) (width : UInt8) (bytes : List UInt8)
    (hsaves : ctx.state.events.Saves (randomReading freq) (16 + bytes.length)) :
    Notes (randomReading freq)
      [if source = .getRandom then ⟨fromInstructions ctx.stamp freq, source, pid, bytes⟩
        else ⟨fromInstructions ctx.stamp freq, source, 0, leBytes 8 value.toNat⟩]
      ctx.state.events
      (ctx.eventAppend .randomness (randomPayload value pid source width bytes)).state.events := by
  rw [← randomPayload_length value pid source width bytes] at hsaves
  exact ctx.emitEvent_notes rfl (fun _ => randomReading_event ..) hsaves

variable {ctx : VmContext} {pid : UInt32} {gva : UInt64}

/-- If there is room for their records, the inputs are noted on the way. -/
def NotesRandom (freq : Nat) (given : List RandomInput) (before after : VmContext) : Prop :=
  (∀ input ∈ given, before.state.events.Saves (randomReading freq) input.payloadLength) →
    Notes (randomReading freq) given before.state.events after.state.events

theorem handleRandom_notes (source : RandomSource) (hsource : source ≠ .getRandom) :
    NotesRandom freq (ctx.drawn freq source) ctx (handleRandom source ctx).2 := by
  intro hsaves
  unfold drawn at hsaves ⊢
  unfold handleRandom
  dsimp only at hsaves ⊢
  cases hread : ctx.state.vmcs.fields.read .vmExitInstructionInfo with
  | error e =>
    have hraw : ∃ r, orError (do
        check (fun _ => ExitError.fatal "Failed to read VM-exit instruction info")
          (← readVmcs .vmExitInstructionInfo)) ctx = (.error r, ctx) := by
      simp [orError, readVmcs, Program.mapExit, bind_apply, hread, check]
    obtain ⟨r, hraw⟩ := hraw
    rw [bind_error hraw, if_neg fun h => Bool.noConfusion h.1]
    exact .refl _
  | ok raw =>
    have hraw : orError (do
        check (fun _ => ExitError.fatal "Failed to read VM-exit instruction info")
          (← readVmcs .vmExitInstructionInfo)) ctx = (.ok raw, ctx) := by
      simp [orError, readVmcs, Program.mapExit, bind_apply, hread, check]
    unfold getGuest
    rw [hread] at hsaves
    rw [bind_ok hraw, act_bind]
    dsimp only
    cases hneeds : ctx.state.guest.devices.random.needsRdrandExit with
    | true =>
      rw [if_neg fun h => Bool.noConfusion h.2, if_pos rfl]
      exact .refl _
    | false =>
      rw [hneeds, if_pos ⟨rfl, rfl⟩] at hsaves
      rw [if_pos ⟨rfl, rfl⟩, if_neg (by decide)]
      unfold modifyDevices modifyGuest
      rw [act_bind]
      cases hdrawn : ctx.state.guest.devices.random.generate.1 with
      | none => exact .refl _
      | some v =>
        rw [hdrawn] at hsaves
        have hlength := hsaves _ (mem_singleton.mpr rfl)
        rw [RandomInput.payloadLength, if_neg hsource] at hlength
        have hnotes := appendRandom_notes (ctx.modifyRandom fun random => random.generate.2)
          v 0 source (RdrandInstructionInfo.ofRaw raw).operandSize.width [] hlength
        rw [if_neg hsource] at hnotes
        unfold emit
        dsimp only
        rw [act_bind]
        exact hnotes.append_nil (of_built inferInstance _)

theorem serveRandom_notes (hlen : bytes.length ≤ RANDOM_REPLY_MAX) :
    NotesRandom freq (ctx.written freq gva pid bytes) ctx (serveRandom gva pid bytes ctx).2 := by
  intro hsaves
  have hstate := writeGuestBytes_state bytes.length gva bytes ctx
  unfold serveRandom
  rcases hrun : writeGuestBytes bytes.length gva bytes ctx with ⟨failure | u, stored⟩
  · have hstate' : stored.state = ctx.state := by rwa [hrun] at hstate
    rw [handle_error hrun, written_of_error hrun, ← hstate']
    exact .refl _
  have hstate' : stored.state = ctx.state := by rwa [hrun] at hstate
  have hstamp : stored.stamp = ctx.stamp := by rw [stamp, hstate', stamp]
  rw [written_of_ok hrun] at hsaves ⊢
  rw [handle_ok hrun, take_of_length_le hlen]
  have hlength := hsaves _ (mem_singleton.mpr rfl)
  rw [RandomInput.payloadLength, if_pos rfl, ← hstate'] at hlength
  have hnotes := appendRandom_notes stored 0 pid .getRandom 0 bytes hlength
  rw [if_pos rfl, hstamp, hstate'] at hnotes
  exact hnotes

theorem serveRandom_bind_notes
    {k : UInt64 → Handler ExitHandlerResult} (hlen : bytes.length ≤ RANDOM_REPLY_MAX)
    (hk : ∀ rax, Obeys (Overlooks (randomReading freq)) (k rax)) :
    NotesRandom freq (ctx.written freq gva pid bytes) ctx
      ((serveRandom gva pid bytes >>= k) ctx).2 := by
  intro hsaves
  have hserve := serveRandom_notes hlen hsaves
  obtain ⟨served, hserved, -, -⟩ := serveRandom_spec gva pid bytes ctx
  rw [hserved] at hserve
  rw [bind_ok hserved]
  exact hserve.append_nil (of_built (hk _) _)

theorem RandomState.fill_length_le (rounds len : Nat) (random : RandomState) :
    (random.fill rounds len).1.length ≤ len := by
  induction rounds generalizing len random with
  | zero => exact Nat.zero_le _
  | succ rounds ih =>
    unfold fill
    split
    · exact Nat.zero_le _
    have hrest := ih (len - 8) random.nextSeededU64.2
    dsimp only
    rw [length_append, length_take, leBytes_length]
    omega

theorem ensureGuestWritable_notes {len : Nat} {given : VmContext → List RandomInput}
    {onError : WriteGuest → Handler ExitHandlerResult} {onOk : Unit → Handler ExitHandlerResult}
    (herror : ∀ failure, Obeys (Overlooks (randomReading freq)) (onError failure))
    (hok : ∀ writable, NotesRandom freq (given writable) writable (onOk () writable).2) :
    NotesRandom freq
      (match ensureGuestWritable gva len ctx with
        | (.error _, _) => []
        | (.ok _, writable) => given writable)
      ctx ((ensureGuestWritable gva len).handle onError onOk ctx).2 := by
  intro hsaves
  have hmemory := ensureGuestWritable_memory gva len ctx
  rcases hrun : ensureGuestWritable gva len ctx with ⟨failure | u, writable⟩
  · rw [hrun] at hmemory
    rw [handle_error hrun, ← hmemory.events]
    exact of_built (herror failure) _
  rw [hrun] at hmemory hsaves
  rw [← hmemory.events] at hsaves
  rw [handle_ok hrun, ← hmemory.events]
  exact hok writable hsaves

theorem vmcallGetRandom_notes (hreply : ctx.ReplyFits) :
    NotesRandom freq (ctx.handed freq) ctx (vmcallGetRandom ctx).2 := by
  unfold handed vmcallGetRandom getGuest
  rw [act_bind]
  dsimp only
  split_ifs with hmode hneeds
  · refine ensureGuestWritable_notes (fun _ => inferInstance) fun writable => ?_
    unfold getGuest modifyDevices modifyGuest
    rw [act_bind, act_bind]
    exact serveRandom_bind_notes ((RandomState.fill_length_le _ _ _).trans (Nat.min_le_right _ _))
      fun _ => inferInstance
  · exact fun _ => of_built inferInstance _
  · exact ensureGuestWritable_notes (fun _ => inferInstance) fun writable =>
      serveRandom_bind_notes ((length_take_le' _ _).trans hreply) fun _ => inferInstance

theorem dispatch_overlooks_random {reason : ExitReason} (hrdrand : reason ≠ .rdrand)
    (hrdseed : reason ≠ .rdseed) (hvmcall : reason ≠ .vmcall) (qual : UInt64) (ctx : VmContext) :
    Overlooks (randomReading freq) ctx (dispatch reason qual ctx).2 := by
  refine .of_built ?_ ctx
  unfold dispatch
  split
  all_goals first | contradiction | infer_instance

theorem handleVmcall_overlooks_random (freq : Nat) (h : ctx.state.guest.gprs.rax.toNat ≠ 11) :
    Overlooks (Lab.randomReading freq) ctx (handleVmcall ctx).2 := by
  unfold handleVmcall getGuest
  rw [act_bind]
  refine .of_built ?_ ctx
  dsimp only
  split
  all_goals first | contradiction | infer_instance

theorem dispatch_random (reason : ExitReason) (qual : UInt64) (hreply : ctx.ReplyFits) :
    NotesRandom freq (ctx.servedBy freq reason) ctx (dispatch reason qual ctx).2 := by
  intro hsaves
  by_cases hrdrand : reason = .rdrand
  · subst hrdrand
    have hdrawn := handleRandom_notes .rdrand (by decide) hsaves
    rwa [← call_state] at hdrawn
  by_cases hrdseed : reason = .rdseed
  · subst hrdseed
    have hdrawn := handleRandom_notes .rdseed (by decide) hsaves
    rwa [← call_state] at hdrawn
  by_cases hvmcall : reason = .vmcall
  · subst hvmcall
    unfold servedBy at hsaves ⊢
    by_cases hrax : ctx.state.guest.gprs.rax.toNat = 11
    · rw [if_pos hrax] at hsaves ⊢
      have hhanded := vmcallGetRandom_notes hreply hsaves
      rwa [← handleVmcall_getRandom hrax, ← call_state] at hhanded
    have hother := handleVmcall_overlooks_random freq hrax
    rw [← call_state] at hother
    rw [if_neg hrax]
    exact hother
  · have hnone : ctx.servedBy freq reason = [] := by
      cases reason <;> first | contradiction | rfl
    rw [hnone]
    exact dispatch_overlooks_random hrdrand hrdseed hvmcall qual ctx

theorem VmContext.leave_random (hsafe : ctx.FinalizesSafely) (hreply : ctx.ReplyFits)
    (hsaves : ctx.SavesRandom freq) :
    Notes (randomReading freq) (ctx.givenRandom freq) ctx.state.events
      ctx.leave.2.state.events := by
  unfold SavesRandom givenRandom at hsaves
  unfold givenRandom
  cases hinfo : ctx.exitInfo with
  | error e => exact leave_overlooks_of_error hsafe hinfo
  | ok info =>
    obtain ⟨reason, qual⟩ := info
    rw [hinfo] at hsaves
    refine leave_notes hsafe hinfo ?_
    rintro begun rfl
    exact dispatch_random reason qual hreply hsaves

end Random

/-! ## I/O requests -/

namespace VmContext

/-- The context in which an entry looks for a request that is due. -/
def timed (ctx : VmContext) (how : Resume) : VmContext :=
  (checkApicTimer (ctx.resume how).2).2

def signalled (ctx : VmContext) (how : Resume) : List (List UInt8) :=
  let chan := ctx.state.guest.ioChannel
  if chan.requestDelivered = false ∧
      (ctx.enter how).2.state.guest.ioChannel.requestDelivered = true then
    [chan.request]
  else []

def SavesRequest (ctx : VmContext) (freq : Nat) (how : Resume) : Prop :=
  ∀ request ∈ ctx.signalled how,
    (ctx.timed how).state.events.Saves (ioReading freq) (16 + request.length)

end VmContext

section Requests

variable {freq : Nat}

instance : Fact (inject ≠ (ioReading freq).kind) :=
  ⟨nofun⟩

instance : Fact (serial ≠ (ioReading freq).kind) :=
  ⟨nofun⟩

instance : Fact (randomness ≠ (ioReading freq).kind) :=
  ⟨nofun⟩

/-- No note is taken, and the guest is not told of a request. -/
structure Untold (freq : Nat) (before after : VmContext) : Prop where
  overlooks : Overlooks (ioReading freq) before after
  signal : signal.get after = signal.get before

theorem Untold.refl : Untold freq ctx ctx :=
  ⟨.refl ctx, rfl⟩

theorem Untold.trans {a b c : VmContext} (hab : Untold freq a b) (hbc : Untold freq b c) :
    Untold freq a c :=
  ⟨hab.overlooks.trans hbc.overlooks, hbc.signal.trans hab.signal⟩

theorem Untold.of_built {ε α : Type} {m : Program ε VmContext α}
    (h : Built (Framed .signal (Built.Keeping (Overlooks (ioReading freq)))) m)
    (ctx : VmContext) : Untold freq ctx (m ctx).2 :=
  ⟨.of_built (h.mono fun _ hf => hf.1) ctx, Framed.get h ctx⟩

theorem checkIoChannel_snd :
    (checkIoChannel ctx).2 =
      if ctx.state.guest.ioChannelDue ctx.state.clock.emulatedTsc then
        (ctx.setGuest (ctx.state.guest.raiseRequest ctx.state.clock.emulatedTsc)).eventEmitIoChannel
          .request ctx.state.guest.ioChannel.requestTargetTsc
      else ctx := by
  unfold checkIoChannel getGuest getClock modifyGuest emit raiseRequest
  rw [act_bind, act_bind]
  dsimp only
  cases ctx.state.guest.ioChannelDue ctx.state.clock.emulatedTsc with
  | false | true => rfl

theorem checkIoChannel_notes {ctx : VmContext}
    (hfits : ctx.state.guest.ioChannel.request.length ≤ IO_CHANNEL_BUF_SIZE)
    (hsaves : ctx.state.guest.ioChannelDue ctx.state.clock.emulatedTsc →
      ctx.state.events.Saves (ioReading freq)
        (16 + ctx.state.guest.ioChannel.request.length)) :
    Notes (ioReading freq)
      (if ctx.state.guest.ioChannelDue ctx.state.clock.emulatedTsc then
        (decodeRequest ctx.state.guest.ioChannel.request).toList else [])
      ctx.state.events (checkIoChannel ctx).2.state.events := by
  rw [checkIoChannel_snd]
  by_cases hdue : ctx.state.guest.ioChannelDue ctx.state.clock.emulatedTsc
  · have hrequest : (ctx.state.guest.raiseRequest
        ctx.state.clock.emulatedTsc).ioChannel.request = ctx.state.guest.ioChannel.request := by
      rw [raiseRequest, if_pos hdue]
    rw [if_pos hdue, if_pos hdue]
    unfold eventEmitIoChannel
    dsimp only [setGuest]
    rw [hrequest, take_of_length_le hfits]
    have hkind : EventKind.ioChannel = (ioReading freq).kind := rfl
    refine (ctx.setGuest (ctx.state.guest.raiseRequest
      ctx.state.clock.emulatedTsc)).emitEvent_notes hkind (fun realTsc => ?_) ?_
    · exact ioReading_event ..
    · rw [ioChannelPayload_length]
      exact hsaves hdue
  · rw [if_neg hdue, if_neg hdue]
    exact .refl _

theorem injectEligible_signal (freq : Nat) (ctx : VmContext) :
    Untold freq ctx (injectEligible ctx).2 ∨
      injectEligible ctx = (.ok true, (checkIoChannel (checkApicTimer ctx).2).2) := by
  have hreinject : Untold freq ctx (reinjectVectoredEvent ctx).2 := .of_built inferInstance ctx
  unfold injectEligible
  rcases hrun : reinjectVectoredEvent ctx with ⟨e | reinjected, ctx₁⟩
  · rw [hrun] at hreinject
    rw [bind_error hrun]
    exact .inl hreinject
  rw [hrun] at hreinject
  obtain ⟨rfl, hctx⟩ := reinjectVectoredEvent_ok hrun
  rw [bind_ok hrun]
  cases hinterrupted : ctx.interrupted with
  | true =>
    rw [if_pos rfl]
    exact .inl hreinject
  | false =>
    rw [hinterrupted, if_neg (by decide)] at hctx
    subst hctx
    unfold lastExitDeterministic
    rw [if_neg (by decide), act_bind]
    dsimp only
    split
    · exact .inl (.refl ctx₁)
    obtain ⟨timed, htimed, -⟩ := checkApicTimer_spec ctx₁
    obtain ⟨raised, hraised, -⟩ := checkIoChannel_spec timed
    unfold raiseDue
    rw [bind_ok (readFieldOrZero_apply _ _)]
    split
    · exact .inl (.refl ctx₁)
    · rw [bind_ok htimed, bind_ok hraised, htimed, hraised]
      exact .inr rfl

theorem checkApicTimer_ioChannel :
    (checkApicTimer ctx).2.state.guest.ioChannel = ctx.state.guest.ioChannel := by
  obtain ⟨timed, htimed, hevents⟩ := checkApicTimer_spec ctx
  rw [htimed]
  refine (congrArg ioChannel hevents.guest).trans ?_
  dsimp only [setGuest]
  unfold raiseTimer
  split
  · rfl
  · rfl

theorem injectPendingInterrupt_notes (freq : Nat) {ctx : VmContext}
    (hfits : ctx.state.guest.ioChannel.request.length ≤ IO_CHANNEL_BUF_SIZE)
    (hsaves : ctx.state.guest.ioChannel.requestDelivered = false →
      (injectPendingInterrupt ctx).2.state.guest.ioChannel.requestDelivered →
        (checkApicTimer ctx).2.state.events.Saves (ioReading freq)
          (16 + ctx.state.guest.ioChannel.request.length)) :
    Untold freq ctx (injectPendingInterrupt ctx).2 ∨
    (ctx.state.guest.ioChannel.request ≠ [] ∧
      ctx.state.guest.ioChannel.requestDelivered = false ∧
      (injectPendingInterrupt ctx).2.state.guest.ioChannel.requestDelivered ∧
      Notes (ioReading freq)
        (decodeRequest ctx.state.guest.ioChannel.request).toList ctx.state.events
        (injectPendingInterrupt ctx).2.state.events) := by
  have hrest : ∀ (eligible : Bool) (c : VmContext), Untold freq c
      ((armForNextIteration >>= fun _ => if eligible = false then pure none else injectPendingVector :
        Fallible (Option UInt32)) c).2 :=
    fun eligible c => .of_built inferInstance c
  rcases injectEligible_signal freq ctx with huntold | hraised
  · left
    unfold injectPendingInterrupt
    rcases hrun : injectEligible ctx with ⟨e | eligible, c⟩
    · rw [hrun] at huntold
      rw [bind_error hrun]
      exact huntold
    · rw [hrun] at huntold
      rw [bind_ok hrun]
      exact huntold.trans (hrest eligible c)
  · have htimed : Untold freq ctx (checkApicTimer ctx).2 := .of_built inferInstance ctx
    have hchannel := checkApicTimer_ioChannel ctx
    have hafter : Untold freq (checkIoChannel (checkApicTimer ctx).2).2
        (injectPendingInterrupt ctx).2 := by
      unfold injectPendingInterrupt
      rw [bind_ok hraised]
      exact hrest true _
    generalize (checkApicTimer ctx).2 = timed at htimed hchannel hafter hsaves
    have hsnd := checkIoChannel_snd timed
    by_cases hdue : timed.state.guest.ioChannelDue timed.state.clock.emulatedTsc
    · right
      obtain ⟨hrequest, hbefore⟩ : ctx.state.guest.ioChannel.request ≠ [] ∧
          ctx.state.guest.ioChannel.requestDelivered = false := by
        rw [← hchannel]
        unfold ioChannelDue at hdue
        simp only [Bool.and_eq_true, Bool.not_eq_true'] at hdue
        exact ⟨of_decide_eq_true hdue.1.1.1.2, hdue.1.1.2⟩
      have hdelivered : (injectPendingInterrupt ctx).2.state.guest.ioChannel.requestDelivered =
          true := by
        have hraise : (timed.state.guest.raiseRequest
            timed.state.clock.emulatedTsc).ioChannel.requestDelivered := by
          rw [raiseRequest, if_pos hdue]
        rw [hsnd, if_pos hdue] at hafter
        exact (Eq.trans hafter.signal (signal.get_of_untouched
          (Emission.run_events _ (.ioChannel .request _)).untouched)).trans hraise
      refine ⟨hrequest, hbefore, hdelivered, ?_⟩
      have hnotes := checkIoChannel_notes (hchannel ▸ hfits) fun _ =>
        hchannel ▸ hsaves hbefore hdelivered
      rw [if_pos hdue, hchannel] at hnotes
      exact (htimed.overlooks.append hnotes).append_nil hafter.overlooks
    · left
      rw [hsnd, if_neg hdue] at hafter
      exact htimed.trans hafter

end Requests

namespace VmContext

/-- The request the guest was told of and has not asked for yet. -/
def awaited (ctx : VmContext) : List (List UInt8) :=
  if ctx.state.guest.ioChannel.requestDelivered = true then [ctx.state.guest.ioChannel.request]
  else []

variable {freq : Nat} {ctx : VmContext} {how : Resume}

theorem resume_guest (ctx : VmContext) (how : Resume) :
    (ctx.resume how).2.state.guest = ctx.state.guest :=
  (guest_frames.resume ctx how).1

theorem awaited_congr {before after : VmContext}
    (hrequest : after.state.guest.ioChannel.request = before.state.guest.ioChannel.request)
    (hsignal : signal.get after = signal.get before) : after.awaited = before.awaited := by
  have hdelivered : after.state.guest.ioChannel.requestDelivered =
      before.state.guest.ioChannel.requestDelivered := hsignal
  rw [awaited, hdelivered, hrequest, awaited]

theorem signalled_eq_nil (h : signal.get (ctx.enter how).2 = signal.get ctx) :
    ctx.signalled how = [] := by
  have hdelivered : (ctx.enter how).2.state.guest.ioChannel.requestDelivered =
      ctx.state.guest.ioChannel.requestDelivered := h
  unfold signalled
  dsimp only
  rw [if_neg]
  rintro ⟨hbefore, hafter⟩
  rw [hdelivered, hbefore] at hafter
  cases hafter

theorem enter_io (hfits : ctx.state.guest.ioChannel.Fits) (hsaves : ctx.SavesRequest freq how) :
    Notes (ioReading freq) ((ctx.signalled how).filterMap decodeRequest)
      (ctx.resumedEvents how) (ctx.enter how).2.state.events ∧
    (ctx.enter how).2.awaited = ctx.awaited ++ ctx.signalled how ∧ [] ∉ ctx.signalled how := by
  have hresume := ctx.resume_overlooks (ρ := ioReading freq) how
  have hguest := ctx.resume_guest how
  have hrequest := (ctx.enter_requests how).request
  have huntold : signal.get (ctx.enter how).2 = signal.get ctx →
      Notes (ioReading freq) [] (ctx.resumedEvents how) (ctx.enter how).2.state.events →
      Notes (ioReading freq) ((ctx.signalled how).filterMap decodeRequest)
        (ctx.resumedEvents how) (ctx.enter how).2.state.events ∧
      (ctx.enter how).2.awaited = ctx.awaited ++ ctx.signalled how ∧ [] ∉ ctx.signalled how := by
    intro hsignal hnotes
    rw [signalled_eq_nil hsignal, append_nil]
    exact ⟨hnotes, awaited_congr hrequest hsignal, not_mem_nil⟩
  rcases hrun : ctx.resume how with ⟨e | u, resumed⟩
  · have henter : (ctx.enter how).2 = resumed := by rw [enter, hrun]
    rw [hrun] at hresume hguest
    apply huntold
    · rw [henter]
      exact congrArg (fun g => g.ioChannel.requestDelivered) hguest
    · rw [henter]
      exact hresume
  · have henter : (ctx.enter how).2 = (injectPendingInterrupt resumed).2 := by rw [enter, hrun]
    have hguest' : resumed.state.guest = ctx.state.guest := by rwa [hrun] at hguest
    have htimed : ctx.timed how = (checkApicTimer resumed).2 := by rw [timed, hrun]
    rw [hrun] at hresume
    have hsignalled : ctx.state.guest.ioChannel.requestDelivered = false →
        (injectPendingInterrupt resumed).2.state.guest.ioChannel.requestDelivered →
          ctx.signalled how = [ctx.state.guest.ioChannel.request] := by
      intro hbefore hafter
      rw [← henter] at hafter
      unfold signalled
      dsimp only
      rw [if_pos ⟨hbefore, hafter⟩]
    have hinject := injectPendingInterrupt_notes freq (hguest' ▸ hfits.request)
      fun hbefore hafter => by
        rw [hguest'] at hbefore ⊢
        rw [← htimed]
        exact hsaves _ (hsignalled hbefore hafter ▸ mem_singleton.mpr rfl)
    rcases hinject with hsame | ⟨hsome, hbefore, hafter, hnotes⟩
    · apply huntold
      · rw [henter]
        exact Eq.trans hsame.signal (congrArg (fun g => g.ioChannel.requestDelivered) hguest')
      · rw [henter]
        exact hresume.trans hsame.overlooks
    rw [hguest'] at hsome hbefore hnotes
    have hnone : ctx.awaited = [] := by rw [awaited, if_neg (by simp [hbefore])]
    have hone : (ctx.enter how).2.awaited = [ctx.state.guest.ioChannel.request] := by
      rw [awaited, hrequest, henter, if_pos hafter]
    rw [hsignalled hbefore hafter, hone, hnone, henter]
    have hnoted : [ctx.state.guest.ioChannel.request].filterMap decodeRequest =
        (decodeRequest ctx.state.guest.ioChannel.request).toList := by
      cases hdecode : decodeRequest ctx.state.guest.ioChannel.request with
      | none => exact filterMap_cons_none hdecode
      | some request => exact filterMap_cons_some hdecode
    rw [hnoted]
    exact ⟨hresume.append hnotes, rfl, fun hnil => hsome (mem_singleton.mp hnil).symm⟩

end VmContext

theorem ioChannelPayload_take (phase : IoChannelPhase) (targetTsc n : Nat) (bytes : List UInt8) :
    (ioChannelPayload phase targetTsc bytes).take (16 + n) =
      ioChannelPayload phase targetTsc (bytes.take n) := by
  have hheader : (phase.asU8 :: List.replicate 7 0 ++ leBytes 8 targetTsc).length = 16 := by
    simp [leBytes_length]
  unfold ioChannelPayload
  rw [← hheader, take_length_add_append]

section Requests

variable {freq : Nat}

theorem emitResponse_overlooks (targetTsc : Nat) (ctx : VmContext) :
    Overlooks (ioReading freq) ctx (ctx.eventEmitIoChannel .response targetTsc) := by
  have hsize : IO_CHANNEL_BUF_SIZE = 16 + (IO_CHANNEL_BUF_SIZE - 16) := by decide
  refine ctx.emitEvent_unnoted fun realTsc => ⟨ioReading_event .., ?_⟩
  rw [trim, hsize, ioChannelPayload_take]
  exact ioReading_event ..

instance {ε : Type} (targetTsc : Nat) : Obeys (Overlooks (ioReading freq))
    (emit (.ioChannel .response targetTsc) : Program ε VmContext _) :=
  .act (emitResponse_overlooks targetTsc)

theorem handleVmcall_overlooks_io (freq : Nat) (ctx : VmContext) :
    Overlooks (ioReading freq) ctx (handleVmcall ctx).2 := by
  have hput : Obeys (Overlooks (ioReading freq)) vmcallIoPutResponse := by
    unfold vmcallIoPutResponse
    infer_instance
  unfold handleVmcall getGuest
  rw [act_bind]
  refine .of_built ?_ ctx
  dsimp only
  split
  all_goals infer_instance

theorem dispatch_overlooks_io (freq : Nat) (reason : ExitReason) (qual : UInt64)
    (ctx : VmContext) : Overlooks (ioReading freq) ctx (dispatch reason qual ctx).2 := by
  by_cases hvmcall : reason = .vmcall
  · have hoverlooks := handleVmcall_overlooks_io freq ctx
    rw [← call_state] at hoverlooks
    subst hvmcall
    exact hoverlooks
  refine .of_built ?_ ctx
  unfold dispatch
  split
  all_goals first | contradiction | infer_instance

end Requests

/-! ## Iterations -/

theorem IoChannelState.consumeRequest_signal (chan : IoChannelState) :
    chan.consumeRequest.requestDelivered = false := by
  unfold consumeRequest
  by_cases hpending : chan.pending = []
  · rw [promoteNextPending_nil (by exact hpending)]
  · obtain ⟨next, rest, hcons⟩ := exists_cons_of_ne_nil hpending
    rw [promoteNextPending_cons rfl (by exact hcons)]

namespace Iteration

variable {it : Iteration} {freq : Nat}

/-- The guest asks for requests it was told of, and does not have itself told of a request
again. -/
structure Orderly (it : Iteration) : Prop where
  asks : it.delivered ≠ [] → it.exited.state.guest.ioChannel.requestDelivered = true
  registers : it.exited.hypercall = some 4 → signal.get it.done = signal.get it.exited

/-- There is room for the records of an iteration, and finalizing leaves them alone. -/
structure Saves (it : Iteration) (freq : Nat) : Prop where
  random : it.exited.SavesRandom freq
  request : it.start.SavesRequest freq it.how
  finalizes : it.exited.FinalizesSafely

end Iteration

namespace VmContext

theorem leave_overlooks_io (freq : Nat) {ctx : VmContext} (hsafe : ctx.FinalizesSafely) :
    Overlooks (ioReading freq) ctx ctx.leave.2 := by
  cases hinfo : ctx.exitInfo with
  | error e => exact leave_overlooks_of_error hsafe hinfo
  | ok info =>
    exact leave_notes hsafe hinfo fun begun _ => dispatch_overlooks_io freq info.1 info.2 begun

theorem enter_overlooks_random (freq : Nat) (ctx : VmContext) (how : Resume) :
    Notes (Lab.randomReading freq) [] (ctx.resumedEvents how) (ctx.enter how).2.state.events := by
  have hresume := ctx.resume_overlooks (ρ := Lab.randomReading freq) how
  unfold enter
  generalize ctx.resume how = begun at hresume ⊢
  obtain ⟨e | _, resumed⟩ := begun
  · exact hresume
  · exact hresume.trans (of_built inferInstance resumed)

end VmContext

namespace Iteration.Valid

variable {it : Iteration} {freq : Nat}

/-- The randomness served in an iteration is noted. -/
theorem random (h : it.Valid) (hreply : it.start.ReplyFits) (hsaves : it.Saves freq) :
    Notes (Lab.randomReading freq) (it.exited.givenRandom freq)
      (it.start.resumedEvents it.how) it.done.state.events := by
  have hentered := Part.random.get_enter it.start it.how
  have henter := it.start.enter_overlooks_random freq it.how
  rw [h.enter] at hentered henter
  have hfits : it.exited.ReplyFits :=
    KeepsReply.of_random ((get_of_ran h.ran (by decide)).trans hentered) hreply
  have hleave := leave_random hsaves.finalizes hfits hsaves.random
  rw [h.leave, h.ran.events] at hleave
  exact henter.append hleave

/-- The request the guest is told of in an iteration is noted. -/
theorem io (h : it.Valid) (hfits : it.start.state.guest.ioChannel.Fits) (hsaves : it.Saves freq) :
    Notes (ioReading freq) ((it.start.signalled it.how).filterMap decodeRequest)
      (it.start.resumedEvents it.how) it.done.state.events := by
  have henter := (enter_io hfits hsaves.request).1
  have hleave := leave_overlooks_io freq hsaves.finalizes
  rw [h.enter] at henter
  rw [h.leave] at hleave
  unfold Overlooks at hleave
  rw [h.ran.events] at hleave
  exact henter.append_nil hleave

theorem signal_of_delivered_nil (h : it.Valid) (hfits : it.start.state.guest.ioChannel.Fits)
    (horderly : it.Orderly) (hkept : RequestsKept it.start it.done) :
    signal.get it.done = signal.get it.exited := by
  have hleave : it.exited.leave.2 = it.done := by rw [h.leave]
  by_cases hget : it.exited.hypercall = some 5
  · rcases leave_getRequest hget with hsame | ⟨hrequest, -, hconsumed⟩
    · rw [hleave] at hsame
      exact congrArg IoChannelState.requestDelivered hsame
    -- A consumed request is no longer outstanding.
    have hexited := h.requests_exited
    have hone := outstanding_of_request (hexited.fits hfits) hrequest
    rw [← hconsumed, hleave, hexited.outstanding, ← hkept.outstanding] at hone
    exact absurd (congrArg List.length hone) (by simp)
  by_cases hregister : it.exited.hypercall = some 4
  · exact horderly.registers hregister
  rw [← hleave]
  refine get_leave_of_hypercall (fun _ _ _ hreason => hreason) fun n hn => ?_
  rintro (rfl | rfl)
  · exact hregister hn
  · exact hget hn

/-- The guest takes the requests it was told of. -/
theorem awaited (h : it.Valid) (hfits : it.start.state.guest.ioChannel.Fits)
    (hsaves : it.Saves freq) (horderly : it.Orderly) :
    it.start.awaited ++ it.start.signalled it.how =
      it.delivered.map PendingIoAction.data ++ it.done.awaited := by
  have hexited := h.requests_exited
  have henter := (enter_io hfits hsaves.request).2.1
  rw [h.enter] at henter
  have hran : it.exited.awaited = it.entered.awaited :=
    awaited_congr (congrArg IoChannelState.request h.ran.ioChannel) (get_of_ran h.ran (by decide))
  rw [← henter, ← hran]
  rcases h.requests hfits with ⟨hnone, hkept, -⟩ | ⟨hrequest, hone, htaken, hconsumed⟩
  · rw [hnone, map_nil, nil_append]
    exact (awaited_congr (hkept.request.trans hexited.request.symm)
      (h.signal_of_delivered_nil hfits horderly hkept)).symm
  have hdelivered := horderly.asks (ne_nil_of_length_eq_add_one hone)
  rw [← hexited.request] at hrequest
  have hfirst := outstanding_of_request (hexited.fits hfits) hrequest
  rw [hexited.outstanding, ← hconsumed, ← singleton_append] at hfirst
  have hgiven := append_cancel_right (htaken.symm.trans hfirst)
  rw [hgiven, VmContext.awaited, if_pos hdelivered, VmContext.awaited, hconsumed,
    consumeRequest_signal]
  rfl

end Iteration.Valid

/-! ## Steps -/

namespace VmStep

def givenRandom (freq : Nat) (t : VmStep) : List RandomInput :=
  match t.label with
  | .iterate it => it.exited.givenRandom freq
  | _ => []

def signalled (t : VmStep) : List (List UInt8) :=
  match t.label with
  | .iterate it => it.start.signalled it.how
  | .abort how .entry => t.pre.signalled how
  | _ => []

def gotRequests (t : VmStep) : List PendingIoAction :=
  match t.label with
  | .iterate it => it.delivered
  | _ => []

/-- What is served in a step can be noted, and the guest asks for requests it was told
of. -/
def Tracked (freq : Nat) (t : VmStep) : Prop :=
  match t.label with
  | .iterate it => it.Saves freq ∧ it.Orderly
  | .abort how .entry => t.pre.SavesRequest freq how
  | _ => True

end VmStep

/-- The requests and the reply fit their buffers, and the guest was told of no empty
request. -/
structure VmContext.Tidy (ctx : VmContext) : Prop where
  fits : ctx.state.guest.ioChannel.Fits
  reply : ctx.ReplyFits
  told : [] ∉ ctx.awaited

/-- From `events` on, in a VM that was `ctx`, this randomness and these requests are noted,
and these requests reach the guest. -/
structure Serves (freq : Nat) (events : EventStream) (ctx : VmContext)
    (random : List RandomInput) (signalled : List (List UInt8)) (got : List PendingIoAction)
    (ctx' : VmContext) : Prop where
  tidy : ctx'.Tidy
  random : Notes (randomReading freq) random events ctx'.state.events
  io : Notes (ioReading freq) (signalled.filterMap decodeRequest) events
    ctx'.state.events
  awaited : ctx.awaited ++ signalled = got.map data ++ ctx'.awaited
  outstanding : ctx.outstanding = got ++ ctx'.outstanding

namespace Serves

variable {freq : Nat} {events : EventStream} {a b c : VmContext}
  {random random' : List Lab.RandomInput} {signalled signalled' : List (List UInt8)}
  {got got' : List PendingIoAction}

theorem append (hab : Serves freq events a random signalled got b)
    (hbc : Serves freq b.state.events b random' signalled' got' c) :
    Serves freq events a (random ++ random') (signalled ++ signalled') (got ++ got') c where
  tidy := hbc.tidy
  random := hab.random.append hbc.random
  io := by
    rw [filterMap_append]
    exact hab.io.append hbc.io
  awaited := by
    rw [← append_assoc, hab.awaited, append_assoc, hbc.awaited, map_append, append_assoc]
  outstanding := by rw [hab.outstanding, hbc.outstanding, append_assoc]

theorem told_of_awaited (got : List PendingIoAction) (hctx : [] ∉ a.awaited) (hnew : [] ∉ signalled)
    (h : a.awaited ++ signalled = got.map data ++ b.awaited) : [] ∉ b.awaited := by
  intro hnil
  have hmem : [] ∈ a.awaited ++ signalled := h ▸ mem_append_right _ hnil
  exact (mem_append.mp hmem).elim hctx hnew

end Serves

section Runs

variable {freq : Nat}

theorem Iteration.Valid.serves {it : Iteration} (h : it.Valid) (htidy : it.start.Tidy)
    (htracked : it.step.Tracked freq) :
    Serves freq (it.start.resumedEvents it.how) it.start (it.step.givenRandom freq)
      it.step.signalled it.step.gotRequests it.done := by
  obtain ⟨hsaves, horderly⟩ : it.Saves freq ∧ it.Orderly := htracked
  have hawaited := h.awaited htidy.fits hsaves horderly
  have hnew := (enter_io htidy.fits hsaves.request).2.2
  refine ⟨⟨h.fits htidy.fits, ?_, Serves.told_of_awaited _ htidy.told hnew hawaited⟩,
    h.random htidy.reply hsaves, h.io htidy.fits hsaves, hawaited, h.outstanding htidy.fits⟩
  exact (Valid.iterate h).keepsReply htidy.reply

theorem VmContext.abort_serves {ctx : VmContext} (htidy : ctx.Tidy) (how : Resume)
    (point : AbortPoint)
    (htracked : Tracked freq ⟨ctx, .abort how point, ctx.abort how point⟩) :
    Serves freq (ctx.resumedEvents how) ctx []
      (VmStep.signalled ⟨ctx, .abort how point, ctx.abort how point⟩) [] (ctx.abort how point) := by
  have hreply := (Valid.abort ctx how point).keepsReply htidy.reply
  have hsame : ∀ after : VmContext, after.state.guest = ctx.state.guest →
      (∀ {β : Type} (ρ : Reading β), Notes ρ [] (ctx.resumedEvents how)
        after.state.events) → after.ReplyFits →
      Serves freq (ctx.resumedEvents how) ctx [] [] [] after := by
    intro after hguest hnotes hreply
    have hawaited : after.awaited = ctx.awaited := by rw [awaited, hguest, awaited]
    refine ⟨⟨hguest ▸ htidy.fits, hreply, hawaited ▸ htidy.told⟩, hnotes _, hnotes _, ?_, ?_⟩
    · rw [append_nil, map_nil, nil_append, hawaited]
    · rw [nil_append, outstanding, outstanding, hguest]
  cases point with
  | load =>
    have hevents : (ctx.abort how .load).state.events = ctx.resumedEvents how := by
      cases how <;> rfl
    refine hsame _ (by cases how <;> rfl) (fun ρ => ?_) hreply
    rw [hevents]
    exact .refl _
  | start => exact hsame _ (ctx.resume_guest how) (fun ρ => ctx.resume_overlooks how) hreply
  | entry =>
    obtain ⟨hio, hawaited, hnew⟩ := enter_io htidy.fits htracked
    refine ⟨⟨(ctx.enter_requests how).fits htidy.fits, hreply, ?_⟩,
      ctx.enter_overlooks_random freq how, hio, hawaited.symm,
      (ctx.enter_requests how).outstanding.symm⟩
    exact Serves.told_of_awaited [] htidy.told hnew hawaited.symm

end Runs

end Bedrock
