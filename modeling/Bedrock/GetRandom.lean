import Bedrock.History
import Bedrock.IoRequests

/-!
# Whom the staged randomness goes to

In `ExitToUserspace` mode GET_RANDOM takes two VMCALLs: the first records its buffer and
leaves for userspace, the second finds the staged bytes.  The second one does not look
at its own registers, so the bytes go to the buffer that was recorded last.  They go
to the right buffer as long as the VMCALL that finds them makes the request that is
waiting for them.
-/

namespace Bedrock

open Support VmMemory VmContext Program Bedrock.Part VmStep Built Part RandomState

namespace VmContext

def asked (ctx : VmContext) : UInt64 × Nat :=
  (ctx.state.guest.devices.random.bufGva, ctx.state.guest.devices.random.reqLen)

def randomRequest (ctx : VmContext) : UInt64 × Nat :=
  (ctx.state.guest.gprs.rbx, min ctx.state.guest.gprs.rcx.toNat RANDOM_REPLY_MAX)

def AsksRandom (ctx : VmContext) : Prop :=
  ctx.hypercall = some 11 ∧ ctx.state.guest.devices.random.needsGetRandomExit = true

def FindsRandom (ctx : VmContext) : Prop :=
  ctx.hypercall = some 11 ∧ ctx.state.guest.devices.random.mode = .exitToUserspace ∧
    ctx.state.guest.devices.random.replyValid = true

instance (ctx : VmContext) : Decidable ctx.AsksRandom :=
  inferInstanceAs (Decidable (_ ∧ _))

instance (ctx : VmContext) : Decidable ctx.FindsRandom :=
  inferInstanceAs (Decidable (_ ∧ _))

end VmContext

/-- Nothing the guest can see has changed; some pages may be its own now. -/
def MadeWritable (before after : VmContext) : Prop :=
  GuestUntouched before after ∧ SameReads before.memory after.memory

variable (ctx : VmContext)

theorem MadeWritable.refl : MadeWritable ctx ctx :=
  ⟨.refl ctx, .refl ctx.memory⟩

theorem MadeWritable.trans {a b c : VmContext} (hab : MadeWritable a b) (hbc : MadeWritable b c) :
    MadeWritable a c :=
  ⟨hab.1.trans hbc.1, hab.2.trans hbc.2⟩

section

variable {R : VmContext → VmContext → Prop} (hrefl : ∀ ctx, R ctx ctx)
  (htrans : ∀ {a b c}, R a b → R b c → R a c)
  (hfault : ∀ (ctx : VmContext) (gpa : Nat), R ctx (ctx.handleCowFault gpa).2)
include hrefl hfault

theorem ensurePagesWritable_keeping (rounds : Nat) (gva : UInt64) (len : Nat) :
    Obeys R (ensurePagesWritable rounds gva len) := by
  have htranslate : ∀ gva, Obeys R (translateGvaToGpa gva) := by
    refine fun gva => (translateGvaToGpa_built gva).mono fun f hf ctx => ?_
    rw [hf.state]
    exact hrefl ctx
  have hcopy : ∀ gpa, Obeys R (handleCowFault gpa : Program WriteGuest VmContext _) :=
    fun gpa => .act fun ctx => hfault ctx gpa
  induction rounds generalizing gva len with
  | zero => exact .pure _
  | succ rounds ih =>
    unfold ensurePagesWritable
    infer_instance

include htrans

theorem ensureGuestWritable_rel (gva : UInt64) (len : Nat) (ctx : VmContext) :
    R ctx (ensureGuestWritable gva len ctx).2 := by
  refine keeping hrefl htrans ?_ ctx
  have hpages := ensurePagesWritable_keeping hrefl hfault len gva len
  have hforked : Obeys R (isForked : Program WriteGuest VmContext _) :=
    .act fun ctx => hrefl ctx
  unfold ensureGuestWritable
  infer_instance

end

variable (gva : UInt64)

theorem ensureGuestWritable_made (len : Nat) (ctx : VmContext) :
    MadeWritable ctx (ensureGuestWritable gva len ctx).2 :=
  ensureGuestWritable_rel .refl .trans (fun ctx gpa =>
    ⟨(ctx.handleCowFault_memory gpa).untouched, ctx.handleCowFault_sameReads gpa⟩) gva len ctx

theorem ensureGuestWritable_memory (len : Nat) (ctx : VmContext) :
    MemoryOnly ctx (ensureGuestWritable gva len ctx).2 :=
  ensureGuestWritable_rel .refl .trans handleCowFault_memory gva len ctx

/-! ## Completing a call -/

/-- What completing a call can do with the staged bytes: a page could not be copied and
the call is made again, a page of the buffer is not mapped, or the bytes are written to
the buffer at `gva`, in the address space the guest is in, and RAX is their number. -/
inductive Answered (gva : UInt64) (bytes : List UInt8) (before after : VmContext) : Prop
  | retry (hguest : after.state.guest = before.state.guest)
      (hreads : SameReads before.memory after.memory)
  | unmapped (hrax : after.state.guest.gprs.rax = VMCALL_FAILED)
      (hreads : SameReads before.memory after.memory)
      (hrandom : after.state.guest.devices.random.replyValid = false)
  | wrote (writable : VmContext) (hwritable : MadeWritable before writable)
      (hmemory : after.memory = (writeGuestBytes bytes.length gva bytes writable).2.memory)
      (hrax : after.state.guest.gprs.rax =
        if (writeGuestBytes bytes.length gva bytes writable).1.isOk = true then
          UInt64.ofNat bytes.length
        else VMCALL_FAILED)
      (hrandom : after.state.guest.devices.random.replyValid = false)

theorem writeGuestBytes_state (rounds : Nat) (gva : UInt64) (bytes : List UInt8) (ctx : VmContext) :
    (writeGuestBytes rounds gva bytes ctx).2.state = ctx.state := by
  have htranslate : ∀ gva, Built (Keeping fun before after : VmContext =>
      after.state = before.state) (translateGvaToGpa gva) := by
    refine fun gva => (translateGvaToGpa_built gva).mono fun f hf c => ?_
    rw [hf.state]
  have hwrite : ∀ gpa bytes, Built (Keeping fun before after : VmContext =>
      after.state = before.state) (writeGuestMemory gpa bytes : Program WriteGuest VmContext _) :=
    fun gpa bytes => .act fun _ => rfl
  refine keeping (R := fun before after : VmContext => after.state = before.state)
    (fun _ => rfl) (fun hab hbc => hbc.trans hab) ?_ ctx
  induction rounds generalizing gva bytes with
  | zero => exact .pure _
  | succ rounds ih =>
    unfold writeGuestBytes
    infer_instance

theorem serveRandom_spec (pid : UInt32) (bytes : List UInt8) (ctx : VmContext) :
    ∃ served, serveRandom gva pid bytes ctx =
        (.ok (if (writeGuestBytes bytes.length gva bytes ctx).1.isOk then
          UInt64.ofNat bytes.length else VMCALL_FAILED), served) ∧
      served.memory = (writeGuestBytes bytes.length gva bytes ctx).2.memory ∧
      served.state.guest = ctx.state.guest := by
  have hstate := writeGuestBytes_state bytes.length gva bytes ctx
  unfold serveRandom
  rcases hrun : writeGuestBytes bytes.length gva bytes ctx with ⟨failure | u, written⟩
  · rw [hrun] at hstate
    rw [handle_error hrun]
    exact ⟨written, rfl, rfl, congrArg VmState.guest hstate⟩
  rw [hrun] at hstate
  rw [handle_ok hrun]
  have hevents := Emission.run_events written (.append .randomness
    (randomPayload 0 pid .getRandom 0 (bytes.take RANDOM_REPLY_MAX)))
  exact ⟨_, rfl, hevents.memory, hevents.guest.trans (congrArg VmState.guest hstate)⟩

theorem getRandomStaged_answered (random : RandomState) (ctx : VmContext) :
    Answered random.bufGva (random.reply.take random.reqLen) ctx
      (getRandomStaged random ctx).2 := by
  unfold getRandomStaged
  generalize hbytes : random.reply.take random.reqLen = bytes
  have hmade := ensureGuestWritable_made random.bufGva bytes.length ctx
  rcases hrun : ensureGuestWritable random.bufGva bytes.length ctx with ⟨failure | u, writable⟩
  · rw [hrun] at hmade
    rw [handle_error hrun]
    split
    · exact .retry hmade.1.guest hmade.2
    unfold clearRandomRequest modifyDevices modifyGuest
    rw [act_bind]
    obtain ⟨hguest, hmemory⟩ := vmcallReturn_frame VMCALL_FAILED .continue_
      (writable.setGuest { writable.state.guest with devices :=
        { writable.state.guest.devices with
          random := writable.state.guest.devices.random.clearRequest } })
    refine .unmapped ?_ ?_ ?_
    · rw [hguest]
    · rw [hmemory]
      exact hmade.2
    · rw [hguest]
      rfl
  · rw [hrun] at hmade
    rw [handle_ok hrun]
    obtain ⟨served, hserved, hwritten, hguest⟩ :=
      serveRandom_spec random.bufGva random.pid bytes writable
    rw [bind_ok hserved]
    unfold clearRandomRequest modifyDevices modifyGuest
    rw [act_bind]
    obtain ⟨hreturned, hmemory⟩ := vmcallReturn_frame
      (if (writeGuestBytes bytes.length random.bufGva bytes writable).1.isOk then
        UInt64.ofNat bytes.length else VMCALL_FAILED) .continue_
      (served.setGuest { served.state.guest with devices :=
        { served.state.guest.devices with
          random := served.state.guest.devices.random.clearRequest } })
    refine .wrote writable hmade ?_ ?_ ?_
    · rw [hmemory]
      exact hwritten
    · rw [hreturned]
    · rw [hreturned]
      rfl

/-! ## What happens to the recorded request -/

def SameAsked (before after : VmContext) : Prop :=
  after.asked = before.asked

variable {before after : VmContext} {waiting : Option (UInt64 × Nat)}

theorem SameAsked.of_random (h : random.get after = random.get before) : SameAsked before after :=
  congrArg (fun random : RandomState => (random.bufGva, random.reqLen)) h

theorem SameAsked.of_built {ε α : Type} {m : Program ε VmContext α}
    (h : Obeys SameAsked m) (ctx : VmContext) : SameAsked ctx (m ctx).2 :=
  keeping (R := SameAsked) (fun _ => rfl) (fun hab hbc => Eq.trans hbc hab) h ctx

/-- What leaves the device alone leaves the request alone. -/
instance (priority := low) {ε α : Type} {m : Program ε VmContext α}
    [h : Built (Framed .random HandlerAction) m] : Obeys SameAsked m :=
  h.mono fun _ hf ctx => .of_random (hf.2 ctx)

theorem RandomState.generate_request (random : RandomState) :
    random.generate.2.bufGva = random.bufGva ∧ random.generate.2.reqLen = random.reqLen := by
  unfold generate
  cases random.mode <;> exact ⟨rfl, rfl⟩

theorem RandomState.fill_request (rounds len : Nat) (random : RandomState) :
    (random.fill rounds len).2.bufGva = random.bufGva ∧
      (random.fill rounds len).2.reqLen = random.reqLen := by
  induction rounds generalizing len random with
  | zero => exact ⟨rfl, rfl⟩
  | succ rounds ih =>
    unfold fill
    split
    · exact ⟨rfl, rfl⟩
    · exact ih _ _

theorem handleRandom_asked (source : RandomSource) (ctx : VmContext) :
    SameAsked ctx (handleRandom source ctx).2 := by
  refine SameAsked.of_built ?_ ctx
  have hgenerate : Obeys SameAsked (modifyDevices fun dev =>
      { dev with random := dev.random.generate.2 } : Handler Unit) :=
    .act fun c => Prod.ext (generate_request _).1 (generate_request _).2
  have : random.Other .stackPointer := ⟨by decide⟩
  unfold handleRandom
  refine .bind inferInstance fun raw => .bind inferInstance fun g => ?_
  dsimp only
  split
  · infer_instance
  · refine .bind hgenerate fun _ => ?_
    cases g.devices.random.generate.1 <;> infer_instance

theorem getRandomSeeded_asked (cap : Nat) (pid : UInt32) (ctx : VmContext) :
    SameAsked ctx (getRandomSeeded gva cap pid ctx).2 := by
  refine SameAsked.of_built ?_ ctx
  have hfill : Obeys SameAsked (modifyDevices fun dev =>
      { dev with random := (dev.random.fill cap cap).2 } : Handler Unit) :=
    .act fun c => Prod.ext (fill_request _ _ _).1 (fill_request _ _ _).2
  unfold getRandomSeeded
  infer_instance

/-- What GET_RANDOM does: it records its request, it draws from the generator, or it finds
staged bytes and answers the recorded request with them. -/
inductive RandomEffect (before after : VmContext) : Prop
  | asks (hexit : before.state.guest.devices.random.needsGetRandomExit = true)
      (hasked : after.asked = before.randomRequest)
  | seeded (hmode : before.state.guest.devices.random.mode = .seededRng)
      (hasked : SameAsked before after)
  | answers (hmode : before.state.guest.devices.random.mode = .exitToUserspace)
      (hreply : before.state.guest.devices.random.replyValid = true)
      (hanswered : Answered before.asked.1
        (before.state.guest.devices.random.reply.take before.asked.2) before after)

theorem vmcallGetRandom_effect : RandomEffect ctx (vmcallGetRandom ctx).2 := by
  unfold vmcallGetRandom getGuest
  rw [act_bind]
  dsimp only
  split
  · rename_i hmode
    exact .seeded hmode (getRandomSeeded_asked _ _ _ ctx)
  rename_i hmode
  have hexit : ctx.state.guest.devices.random.mode = .exitToUserspace := by
    cases hsource : ctx.state.guest.devices.random.mode with
    | seededRng => exact absurd hsource hmode
    | exitToUserspace => rfl
  split
  · rename_i hneeds
    exact .asks hneeds rfl
  rename_i hneeds
  refine .answers hexit ?_ (getRandomStaged_answered _ ctx)
  simpa [needsGetRandomExit, hexit] using hneeds

theorem Answered.congr {gva : UInt64} {bytes : List UInt8} {before' after' : VmContext}
    (h : Answered gva bytes before after) (huntouched : GuestUntouched before' before)
    (hmemory : before.memory = before'.memory)
    (hguest : after'.state.guest = after.state.guest) (hmemory' : after'.memory = after.memory) :
    Answered gva bytes before' after' := by
  cases h with
  | retry hkept hreads =>
    rw [hmemory, ← hmemory'] at hreads
    exact .retry (hguest.trans (hkept.trans huntouched.guest)) hreads
  | unmapped hrax hreads hrandom =>
    rw [hmemory, ← hmemory'] at hreads
    rw [← hguest] at hrax hrandom
    exact .unmapped hrax hreads hrandom
  | wrote writable hwritable hwrote hrax hrandom =>
    rw [← hguest] at hrax hrandom
    rw [← hmemory'] at hwrote
    exact .wrote writable ⟨huntouched.trans hwritable.1, hmemory ▸ hwritable.2⟩ hwrote hrax hrandom

theorem RandomEffect.congr {before' after' : VmContext} (h : RandomEffect before after)
    (huntouched : GuestUntouched before' before) (hmemory : before.memory = before'.memory)
    (hguest : after'.state.guest = after.state.guest) (hmemory' : after'.memory = after.memory) :
    RandomEffect before' after' := by
  have hasked : after'.asked = after.asked := by rw [asked, hguest, asked]
  cases h with
  | asks hexit hrecorded =>
    rw [huntouched.guest] at hexit
    refine .asks hexit (hasked.trans (hrecorded.trans ?_))
    rw [randomRequest, huntouched.guest, randomRequest]
  | seeded hmode hsame =>
    rw [huntouched.guest] at hmode
    refine .seeded hmode (hasked.trans (Eq.trans hsame ?_))
    rw [asked, huntouched.guest, asked]
  | answers hmode hreply hanswered =>
    have hsame := hanswered.congr huntouched hmemory hguest hmemory'
    rw [asked, huntouched.guest] at hsame
    rw [huntouched.guest] at hmode hreply
    exact .answers hmode hreply hsame

theorem handleVmcall_getRandom {ctx : VmContext} (h : ctx.state.guest.gprs.rax.toNat = 11) :
    handleVmcall ctx = vmcallGetRandom ctx := by
  unfold handleVmcall getGuest
  rw [act_bind]
  dsimp only
  rw [h]
  rfl

namespace VmContext

theorem leave_randomEffect {ctx : VmContext} (h : ctx.hypercall = some 11) :
    RandomEffect ctx ctx.leave.2 := by
  obtain ⟨begun, huntouched, hmemory, hrax, hguest, hmemory'⟩ := leave_hypercall h
  rw [handleVmcall_getRandom hrax] at hguest hmemory'
  exact (vmcallGetRandom_effect begun).congr huntouched hmemory hguest hmemory'

theorem asked_frames : Frames SameAsked where
  refl _ := rfl
  trans hab hbc := Eq.trans hbc hab
  events h := .of_random (random.get_of_untouched h.untouched)
  interceptPf _ := rfl
  trapFlag ctx := .of_random (random.get_of_untouched ctx.updateMtfState_untouched)
  begin _ _ := rfl

theorem leave_asked {ctx : VmContext} (h : ctx.hypercall ≠ some 11) : SameAsked ctx ctx.leave.2 := by
  cases hinfo : ctx.exitInfo with
  | error e => exact asked_frames.leave_of_error hinfo
  | ok info =>
    obtain ⟨reason, qual⟩ := info
    by_cases hrandom : reason = .rdrand ∨ reason = .rdseed
    · refine asked_frames.leave_of_handled hinfo fun begun _ => ?_
      rcases hrandom with rfl | rfl
      · have hhandled := handleRandom_asked .rdrand begun
        rwa [← call_state] at hhandled
      · have hhandled := handleRandom_asked .rdseed begun
        rwa [← call_state] at hhandled
    rw [not_or] at hrandom
    refine .of_random (get_leave_of_hypercall ?_ ?_)
    · intro reason' qual' hinfo' hreason
      rw [hinfo] at hinfo'
      cases hinfo'
      rintro (hrdrand | hrdseed | hvmcall)
      · exact hrandom.1 hrdrand
      · exact hrandom.2 hrdseed
      · exact hreason hvmcall
    · rintro n hn rfl
      exact h hn

end VmContext

/-! ## Steps -/

namespace VmStep

/-- The call that waits for its bytes after the step, if `waiting` is the one before. -/
def nextWaiting (waiting : Option (UInt64 × Nat)) (t : VmStep) : Option (UInt64 × Nat) :=
  match t.label with
  | .iterate it =>
    if it.exited.AsksRandom then some it.exited.randomRequest
    else if it.exited.FindsRandom ∧
        it.done.state.guest.devices.random.replyValid = false then none
    else waiting
  | .ioctl (.setRdrandConfig config copied) =>
    if (t.pre.handleSetRdrandConfig config copied).1.isOk = true then none else waiting
  | _ => waiting

end VmStep

def Recorded (waiting : Option (UInt64 × Nat)) (ctx : VmContext) : Prop :=
  ∀ request, waiting = some request → ctx.asked = request

theorem Recorded.of_same
    (h : Recorded waiting before) (hsame : SameAsked before after) : Recorded waiting after :=
  fun request hwaiting => Eq.trans hsame (h request hwaiting)

theorem Iteration.Valid.asked_exited {it : Iteration} (h : it.Valid) :
    SameAsked it.start it.exited := by
  have henter := random.get_enter it.start it.how
  rw [h.enter] at henter
  exact .of_random ((get_of_ran h.ran (by decide)).trans henter)

/-- After an exit the call that waits is still the one that is recorded. -/
theorem Iteration.Valid.recorded {it : Iteration} (h : it.Valid)
    (hrecorded : Recorded waiting it.start) :
    Recorded (nextWaiting waiting ⟨it.start, .iterate it, it.done⟩) it.done := by
  have hleave : it.exited.leave.2 = it.done := by rw [h.leave]
  have hexited := hrecorded.of_same h.asked_exited
  unfold nextWaiting
  dsimp only
  by_cases hcall : it.exited.hypercall = some 11
  · have heffect := leave_randomEffect hcall
    rw [hleave] at heffect
    cases heffect with
    | asks hexit hasked =>
      rw [if_pos ⟨hcall, hexit⟩]
      rintro request ⟨⟩
      exact hasked
    | seeded hmode hsame =>
      have hasks : ¬it.exited.AsksRandom := by
        rintro ⟨-, hexit⟩
        simp [needsGetRandomExit, hmode] at hexit
      have hfinds : ¬it.exited.FindsRandom := by
        rintro ⟨-, hexit, -⟩
        rw [hmode] at hexit
        cases hexit
      rw [if_neg hasks, if_neg fun hfound => hfinds hfound.1]
      exact hexited.of_same hsame
    | answers hmode hreply hanswered =>
      have hasks : ¬it.exited.AsksRandom := by
        rintro ⟨-, hexit⟩
        simp [needsGetRandomExit, hreply] at hexit
      have hfinds : it.exited.FindsRandom := ⟨hcall, hmode, hreply⟩
      rw [if_neg hasks]
      cases hanswered with
      | retry hguest _ =>
        rw [if_neg]
        · exact hexited.of_same (by rw [SameAsked, asked, hguest, asked])
        rintro ⟨-, hforgot⟩
        rw [hguest, hreply] at hforgot
        cases hforgot
      | unmapped _ _ hforgot =>
        rw [if_pos ⟨hfinds, hforgot⟩]
        rintro request ⟨⟩
      | wrote _ _ _ _ hforgot =>
        rw [if_pos ⟨hfinds, hforgot⟩]
        rintro request ⟨⟩
  · have hsame := leave_asked hcall
    rw [hleave] at hsame
    rw [if_neg fun hasks => hcall hasks.1, if_neg fun hfound => hcall hfound.1.1]
    exact hexited.of_same hsame

theorem VmStep.Valid.recorded {t : VmStep} (h : t.Valid)
    (hrecorded : Recorded waiting t.pre) : Recorded (t.nextWaiting waiting) t.post := by
  cases h with
  | iterate hit => exact hit.recorded hrecorded
  | abort ctx how point =>
    exact hrecorded.of_same (.of_random (random.get_abort ctx how point))
  | ioctl ctx call =>
    cases call with
    | setRdrandConfig config copied =>
      unfold nextWaiting
      dsimp only
      split
      · intro request hnone
        cases hnone
      rename_i hrefused
      have hsame : (ctx.handleSetRdrandConfig config copied).2 = ctx := by
        unfold handleSetRdrandConfig at hrefused ⊢
        split
        · rfl
        rename_i hcopied
        rw [if_neg hcopied] at hrefused
        split at hrefused
        · exact absurd rfl hrefused
        · exact absurd rfl hrefused
        · rfl
      exact hrecorded.of_same (congrArg asked hsame)
    | setRdrandValue value copied => cases copied <;> exact hrecorded
    | setRandomBytes bytes copied => cases copied <;> exact hrecorded
    | _ => exact hrecorded.of_same (.of_random (get_ioctl id ctx))
  | store hstores => exact hrecorded
  | fork hfork => exact hrecorded.of_same (.of_random (get_fork hfork (by decide)))

/-! ## Attribution -/

namespace VmStep

/-- If the VMCALL finds staged bytes, then its request is the one that waits for them. -/
def FindsOwn (waiting : Option (UInt64 × Nat)) (t : VmStep) : Prop :=
  match t.label with
  | .iterate it => it.exited.FindsRandom → waiting = some it.exited.randomRequest
  | _ => True

/-- If the VMCALL finds staged bytes, they go to its own buffer, as many as it asks for and
in its address space, and its RAX is their number. -/
def AnswersOwn (t : VmStep) : Prop :=
  match t.label with
  | .iterate it => it.exited.FindsRandom →
      Answered it.exited.state.guest.gprs.rbx
        (it.exited.state.guest.devices.random.reply.take
          (min it.exited.state.guest.gprs.rcx.toNat RANDOM_REPLY_MAX)) it.exited it.done
  | _ => True

end VmStep

theorem VmStep.Valid.answersOwn {t : VmStep} (h : t.Valid)
    (hrecorded : Recorded waiting t.pre) (hown : t.FindsOwn waiting) : t.AnswersOwn := by
  cases h with
  | @iterate it hit =>
    intro hfinds
    have hasked : it.exited.asked = it.exited.randomRequest :=
      Eq.trans hit.asked_exited (hrecorded _ (hown hfinds))
    have heffect := leave_randomEffect hfinds.1
    rw [hit.leave] at heffect
    cases heffect with
    | asks hexit _ => simp [needsGetRandomExit, hfinds.2.2] at hexit
    | seeded hmode _ =>
      rw [hfinds.2.1] at hmode
      cases hmode
    | answers _ _ hanswered =>
      rw [hasked] at hanswered
      exact hanswered
  | _ => trivial

/-- In every history in which the VMCALLs that find staged bytes make the request that
waits for them, the bytes go to the buffer of the VMCALL that finds them. -/
theorem get_random_attributed {ctx ctx' : VmContext} {ts : List VmStep}
    (hhistory : History ctx ts ctx') (hown : Along VmStep.nextWaiting VmStep.FindsOwn none ts) :
    ∀ t ∈ ts, t.AnswersOwn :=
  hhistory.walk.along (I := Recorded)
    (fun t ht _ hrecorded => (hhistory.valid t ht).recorded hrecorded)
    (fun t ht _ hrecorded => (hhistory.valid t ht).answersOwn hrecorded)
    (by rintro request ⟨⟩) hown

/-- The guest runs one instruction and asks for `rcx` random bytes at `rbx`. -/
def VmContext.exitForRandom (ctx : VmContext) (rbx rcx : UInt64) : VmContext :=
  let ctx := ctx.exitWith 1 (fun | .vmExitReason => 18 | _ => 0) 11 rbx
  ctx.setGuest { ctx.state.guest with gprs := { ctx.state.guest.gprs with rcx } }

theorem ran_exitForRandom (rbx rcx : UInt64) :
    Ran ctx (ctx.exitForRandom rbx rcx) := by
  constructor
  all_goals first | rfl | exact .refl _ | exact ⟨rfl, rfl⟩

def configuredRandom : VmStep :=
  .call (zeroVm (.root imageRegion)) (.setRdrandConfig ⟨1, 0⟩ true)

def askedRandom : VmStep :=
  .simulate .ioctl configuredRandom.post fun ctx => ctx.exitForRandom 0x800 8

def stagedRandom : VmStep :=
  .call askedRandom.post (.setRandomBytes [7] true)

/-- A VMCALL for eight bytes at `buffer` finds it. -/
def foundRandom (buffer : UInt64) : VmStep :=
  .simulate .ioctl stagedRandom.post fun ctx => ctx.exitForRandom buffer 8

def randomCalls (buffer : UInt64) : List VmStep :=
  [configuredRandom, askedRandom, stagedRandom, foundRandom buffer]

theorem randomCalls_history (buffer : UInt64) :
    History (zeroVm (.root imageRegion)) (randomCalls buffer) (foundRandom buffer).post := by
  have hasked : (configuredRandom.post.enter .ioctl).1.isOk := by decide +kernel
  have hfound : (stagedRandom.post.enter .ioctl).1.isOk := by decide +kernel
  refine ⟨⟨rfl, rfl, rfl, rfl, rfl⟩, ?_⟩
  simp only [randomCalls, List.forall_mem_cons]
  exact ⟨call_valid _ _, simulate_valid hasked (ran_exitForRandom _ _ _),
    call_valid _ _, simulate_valid hfound (ran_exitForRandom _ _ _),
    List.forall_mem_nil _⟩

/-- The same VMCALL is made again and gets the byte. -/
theorem get_random_attributed_again : (foundRandom 0x800).AnswersOwn := by
  refine get_random_attributed (randomCalls_history 0x800) ?_ _ (by simp [randomCalls])
  refine ⟨trivial, ?_, trivial, ?_, trivial⟩
  · rintro ⟨-, -, hreply⟩
    exact absurd hreply (by decide +kernel)
  · intro _
    decide +kernel

/-- Another VMCALL, for a buffer at 0x900, is made in between.  The byte is written to the
buffer at 0x800 and the number of bytes is returned to the VMCALL that gave 0x900. -/
theorem random_byte_misdelivered :
    ∃ it, (foundRandom 0x900).label = .iterate it ∧
      History (zeroVm (.root imageRegion)) (randomCalls 0x900) it.done ∧ it.exited.FindsRandom ∧
      it.exited.state.guest.gprs.rbx = 0x900 ∧
      it.exited.memory.readByte 0x800 = some 0 ∧ it.done.memory.readByte 0x800 = some 7 ∧
      it.done.memory.readByte 0x900 = some 0 ∧ it.done.state.guest.gprs.rax = 1 :=
  ⟨_, rfl, randomCalls_history 0x900, by decide +kernel⟩

end Bedrock
