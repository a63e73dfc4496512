import Bedrock.IoFifo
import Bedrock.Lab.Console
import Bedrock.Lab.Served

/-!
# Recordings are complete

After each RUN a branch drains the event stream, and with an input source it records the
randomness and the I/O requests it finds there.  A checkpoint takes the recording along.
On a path from a root the recording is what the guest was served, as long as every record
finds a place in the stream, the guest asks only for requests it was told of, no RUN that
fails takes an input with it, and nothing is under way when the VM is forked.
-/

namespace Bedrock

open Support VmContext IoChannelState VmStep List Option EventRecord EventKind EventStream Branch Checkpoint

/-- What is served in a RUN is noted. -/
theorem RunLoop.serves {freq : Nat} {how : Resume} {ctx ctx' : VmContext} {ts : List VmStep}
    {r : Option ExitReason} (h : RunLoop how ctx ts r ctx') (htidy : ctx.Tidy)
    (htracked : ∀ t ∈ ts, t.Tracked freq) :
    Serves freq (ctx.resumedEvents how) ctx (ts.flatMap (givenRandom freq))
      (ts.flatMap signalled) (ts.flatMap gotRequests) ctx' := by
  induction h with
  | again hvalid hnext _ ih =>
    obtain ⟨hfirst, hlater⟩ := forall_mem_cons.mp htracked
    have hserves := hvalid.serves htidy hfirst
    have hrest := ih hserves.tidy hlater
    rw [resumedEvents_of_next hnext] at hrest
    exact hserves.append hrest
  | last hvalid _ =>
    simp only [flatMap_singleton]
    exact hvalid.serves htidy (forall_mem_singleton.mp htracked)
  | aborted how ctx point =>
    simp only [flatMap_singleton]
    exact abort_serves htidy how point (forall_mem_singleton.mp htracked)

/-- What RUN noted is in the buffer or in the staging area. -/
theorem EventStream.Notes.drained {β : Type} {ρ : Reading β} {xs : List β} {es es' : EventStream}
    (h : Notes ρ xs es.clear es') (hon : es.accepts ρ.kind)
    (hloc : es.pendingExitLoc = none) :
    (stream es'.buffer).filterMap ρ.keep ++ es'.stagedFor ρ = es.stagedFor ρ ++ xs := by
  obtain ⟨hsound, hnoted⟩ := clear_noted hon hloc
  rw [← hnoted]
  exact h.noted (by rwa [accepts_clear]) hsound

namespace VmContext

theorem handleQueueIoAction_awaited {ctx : VmContext} (htold : [] ∉ ctx.awaited)
    (action : PendingIoAction) (host : QueueHost) :
    (ctx.handleQueueIoAction action host).2.awaited = ctx.awaited := by
  rcases ctx.handleQueueIoAction_cases action host with ⟨-, hsame⟩ | ⟨-, -, -, hchan⟩
  · rw [hsame]
  rw [awaited, hchan]
  by_cases hrequest : ctx.state.guest.ioChannel.request = []
  · -- An empty slot was not announced, and a request that moves into it is not either.
    have hdelivered : ctx.state.guest.ioChannel.requestDelivered = false := by
      rw [Bool.eq_false_iff]
      intro hdelivered
      rw [awaited, if_pos hdelivered, hrequest] at htold
      exact htold (mem_singleton_self _)
    obtain ⟨next, rest, hcons⟩ := exists_cons_of_ne_nil
      (append_ne_nil_of_right_ne_nil ctx.state.guest.ioChannel.pending (cons_ne_nil action []))
    rw [promoteNextPending_cons (by exact hrequest) (by exact hcons), awaited,
      if_neg (by simp), if_neg (by simp [hdelivered])]
  · rw [promoteNextPending_of_request (by exact hrequest)]
    rfl

/-- An ioctl neither tells the guest of a request nor takes one away. -/
theorem Tidy.ioctl {ctx : VmContext} (h : ctx.Tidy) (call : Ioctl) :
    (ctx.ioctl call).2.Tidy ∧ (ctx.ioctl call).2.awaited = ctx.awaited := by
  have hreply := ctx.ioctl_keepsReply call h.reply
  have hawaited : (ctx.ioctl call).2.state.guest.ioChannel.Fits ∧
      (ctx.ioctl call).2.awaited = ctx.awaited := by
    by_cases hqueue : ∃ action host, call = .queueIoAction action host
    · obtain ⟨action, host, rfl⟩ := hqueue
      exact ⟨(handleQueueIoAction_outstanding action host h.fits).2,
        handleQueueIoAction_awaited h.told action host⟩
    have hother : ∀ action host, call ≠ .queueIoAction action host :=
      fun action host heq => hqueue ⟨action, host, heq⟩
    have hkept := ctx.ioctl_requests hother
    refine ⟨hkept.fits h.fits, awaited_congr hkept.request (Part.get_ioctl ?_ ctx)⟩
    cases call with
    | queueIoAction action host => exact absurd rfl (hother action host)
    | _ => exact id
  exact ⟨⟨hawaited.1, hreply, hawaited.2 ▸ h.told⟩, hawaited.2⟩

/-- No request is under way. -/
structure Idle (ctx : VmContext) : Prop where
  tidy : ctx.Tidy
  awaited : ctx.awaited = []
  outstanding : ctx.outstanding = []

theorem Idle.of_fork {parent child : VmContext} {host : ForkHost}
    (h : ForkedVm.new parent host = .ok child) (hreply : parent.ReplyFits) : child.Idle := by
  have hchannel := ForkedVm.new_ioChannel h
  have hawaited : child.awaited = [] := by
    rw [VmContext.awaited, hchannel]
    rfl
  refine ⟨⟨?_, (Valid.fork h).keepsReply hreply, ?_⟩, hawaited, ?_⟩
  · rw [hchannel]
    exact ⟨Nat.zero_le _, forall_mem_nil _⟩
  · rw [hawaited]
    exact not_mem_nil
  · rw [VmContext.outstanding, hchannel]
    rfl

theorem Idle.ioctl {ctx : VmContext} (h : ctx.Idle) (call : Ioctl)
    (hcall : ∀ action host, call ≠ .queueIoAction action host) : (ctx.ioctl call).2.Idle := by
  obtain ⟨htidy, hawaited⟩ := h.tidy.ioctl call
  exact ⟨htidy, hawaited.trans h.awaited, (ctx.ioctl_requests hcall).outstanding.trans h.outstanding⟩

end VmContext

/-! ## What a branch records -/

namespace Lab

variable {S : Type}

namespace Branch

theorem drainRecord_recording {b : Branch S} (hsourced : b.inputSource.isSome) (r : EventRecord) :
    (b.drainRecord r).inputRecording = b.inputRecording.recordEvent r b.tscFrequency := by
  unfold drainRecord
  by_cases hserial : r.kind = serial.asU16
  · -- Console output is no input.
    have hrandomness : r.kind ≠ randomness.asU16 := by
      rw [hserial]
      decide
    have hioChannel : r.kind ≠ ioChannel.asU16 := by
      rw [hserial]
      decide
    have hrandom : randomInput b.tscFrequency r = none :=
      (randomReading b.tscFrequency).only r hrandomness
    have hio : ioInput b.tscFrequency r = none :=
      map_eq_none_iff.mp ((ioReading b.tscFrequency).only r hioChannel)
    rw [if_pos hserial, InputRecording.recordEvent, hrandom, hio]
    simp
  · rw [if_neg hserial]
    exact if_pos hsourced

theorem drainRecords_recording {b : Branch S} (hsourced : b.inputSource.isSome)
    (rs : List EventRecord) :
    (rs.foldl drainRecord b).inputRecording = b.inputRecording.recordAll rs b.tscFrequency := by
  induction rs generalizing b with
  | nil => rfl
  | cons r rs ih =>
    obtain ⟨line, recording, sink, heq⟩ := b.drainRecord_eq r
    have hfirst := drainRecord_recording hsourced r
    have hsame : (b.drainRecord r).inputSource.isSome ∧
        (b.drainRecord r).tscFrequency = b.tscFrequency := by
      rw [heq]
      exact ⟨hsourced, rfl⟩
    rw [foldl_cons, ih hsame.1, hfirst, hsame.2]
    rfl

def takenRandom (b : Branch S) (freq : Nat) : List RandomInput :=
  b.inputRecording.randomInputs ++ b.vm.state.events.stagedFor (randomReading freq)

def takenIo (b : Branch S) (freq : Nat) : List IoRequest :=
  b.inputRecording.ioInputs.map IoInput.request ++ b.vm.state.events.stagedFor (ioReading freq)

/-- Nothing is staged for the recording, and the guest awaits no request. -/
structure Settled (b : Branch S) (freq : Nat) : Prop where
  random : b.vm.state.events.stagedFor (randomReading freq) = []
  io : b.vm.state.events.stagedFor (ioReading freq) = []
  awaited : b.vm.awaited = []

end Branch

def Encoded (action : PendingIoAction) : Prop :=
  ∃ target command recordOutput, action.data = encodeRequest target command recordOutput

/-- Everything a recording is made from is captured. -/
def CapturesInputs (es : EventStream) : Prop :=
  ∀ kind : EventKind, kind.category &&& RECORDING_CATEGORIES = kind.category →
    es.accepts kind = true

/-- A branch that records what its guest is served. -/
structure Recording (freq : Nat) (b : Branch S) : Prop where
  mapped : b.eventMapped = true
  frequency : b.tscFrequency = freq
  sourced : b.inputSource.isSome = true
  captures : CapturesInputs b.vm.state.events
  place : b.vm.state.events.pendingExitLoc = none
  tidy : b.vm.Tidy
  encoded : ∀ action ∈ b.vm.outstanding, Encoded action

namespace BranchStep

def givenRandom (freq : Nat) (t : BranchStep S) : List RandomInput :=
  match t.label with
  | .run steps _ => steps.flatMap (VmStep.givenRandom freq)
  | _ => []

def signalled (t : BranchStep S) : List (List UInt8) :=
  match t.label with
  | .run steps _ => steps.flatMap VmStep.signalled
  | _ => []

def gotRequests (t : BranchStep S) : List PendingIoAction :=
  match t.label with
  | .run steps _ => steps.flatMap VmStep.gotRequests
  | _ => []

def QueuesRequests (t : BranchStep S) : Prop :=
  match t.label with
  | .ioctl (.queueIoAction action _) => Encoded action
  | _ => True

/-- Nothing is under way at a fork, and a RUN that fails leaves neither an input nor an
unfinished exit record in the event buffer. -/
def SavesInputs (freq : Nat) (t : BranchStep S) : Prop :=
  match t.label with
  | .renew _ _ _ => t.pre.Settled freq
  | .run steps none => steps ≠ [] →
    t.post.vm.state.events.pendingExitLoc = none ∧
      (stream t.post.vm.state.events.buffer).filterMap (randomInput freq) = [] ∧
      (stream t.post.vm.state.events.buffer).filterMap (ioInput freq) = []
  | _ => True

end BranchStep

/-- A step records what it serves. -/
structure Records (freq : Nat) (t : BranchStep S) : Prop where
  recording : Recording freq t.post
  random : t.pre.takenRandom freq ++ t.givenRandom freq = t.post.takenRandom freq
  io : t.pre.takenIo freq ++ t.signalled.filterMap decodeRequest = t.post.takenIo freq
  awaited : t.pre.vm.awaited ++ t.signalled =
    t.gotRequests.map PendingIoAction.data ++ t.post.vm.awaited
  encoded : ∀ action ∈ t.gotRequests, Encoded action

/-! ## Steps of a session -/

variable {P : VmStep → Prop} {freq : Nat}

theorem and_of_and {x c m : UInt32} (h : c &&& m = m) (hx : x &&& m = x) : c &&& x = x := by
  calc c &&& x = c &&& (x &&& m) := by rw [hx]
    _ = x &&& (c &&& m) := by rw [← UInt32.and_assoc, UInt32.and_comm c x, UInt32.and_assoc]
    _ = x := by rw [h, hx]

theorem Captures.accepts_recording {config : BedrockEventConfig} (h : Captures true config)
    {es : EventStream} (hattached : es.attached)
    (hcategories : es.categories = config.categories) : CapturesInputs es := by
  intro kind hkind
  unfold EventStream.accepts EventStream.enabled
  rw [hattached, hcategories, and_of_and (h.recording rfl) hkind]
  simp

namespace Recording

variable {b : Branch S}

theorem accepts_random (h : Recording freq b) :
    b.vm.state.events.accepts (randomReading freq).kind :=
  h.captures .randomness (by decide)

theorem accepts_io (h : Recording freq b) :
    b.vm.state.events.accepts (ioReading freq).kind :=
  h.captures .ioChannel (by decide)

theorem attached (h : Recording freq b) : b.vm.state.events.attached :=
  (Bool.and_eq_true_iff.mp h.accepts_random).1

end Recording

variable {b : Branch S} {t : BranchStep S} {ts : List VmStep} {vm : VmContext}

theorem Recording.encoded_ioctl (h : Recording freq b) (call : Ioctl)
    (hqueues : BranchStep.QueuesRequests ⟨b, .ioctl call, { b with vm := (b.vm.ioctl call).2 }⟩) :
    ∀ action ∈ (b.vm.ioctl call).2.outstanding, Encoded action := by
  by_cases hqueue : ∃ action host, call = .queueIoAction action host
  · obtain ⟨action, host, rfl⟩ := hqueue
    have houtstanding : (b.vm.ioctl (.queueIoAction action host)).2.outstanding = _ :=
      (b.vm.handleQueueIoAction_outstanding action host h.tidy.fits).1
    intro waiting hwaiting
    rw [houtstanding] at hwaiting
    rcases mem_append.mp hwaiting with hold | hnew
    · exact h.encoded waiting hold
    have haccepted := mem_of_mem_filter hnew
    rcases b.vm.handleQueueIoAction_cases action host with ⟨hnone, -⟩ | ⟨hone, -, -, -⟩
    · rw [hnone] at haccepted
      exact absurd haccepted not_mem_nil
    rw [hone] at haccepted
    rw [mem_singleton.mp haccepted]
    exact hqueues
  · have hkept := b.vm.ioctl_requests fun action host heq => hqueue ⟨action, host, heq⟩
    rw [VmContext.outstanding, hkept.outstanding]
    exact h.encoded

theorem Records.of_stream (hpre : Recording freq t.pre)
    (hmapped : t.post.eventMapped) (hfreq : t.post.tscFrequency = freq)
    (hsourced : t.post.inputSource.isSome) {categories : UInt32}
    (hevents : t.post.vm.state.events = { t.pre.vm.state.events with categories })
    (hcaptures : CapturesInputs t.post.vm.state.events)
    (hrecording : t.post.inputRecording = t.pre.inputRecording)
    (htidy : t.post.vm.Tidy) (hawaited : t.post.vm.awaited = t.pre.vm.awaited)
    (hencoded : ∀ action ∈ t.post.vm.outstanding, Encoded action)
    (hrandom : t.givenRandom freq = []) (hsignalled : t.signalled = [])
    (hgot : t.gotRequests = []) : Records freq t := by
  refine ⟨⟨hmapped, hfreq, hsourced, hcaptures, ?_, htidy, hencoded⟩, ?_, ?_, ?_, ?_⟩
  · rw [hevents]
    exact hpre.place
  · rw [hrandom, append_nil, Branch.takenRandom, Branch.takenRandom, hrecording, hevents]
    rfl
  · rw [hsignalled, filterMap_nil, append_nil, Branch.takenIo, Branch.takenIo, hrecording, hevents]
    rfl
  · rw [hsignalled, hgot, hawaited]
    simp
  · rw [hgot]
    exact forall_mem_nil _

/-- A step that touches neither the stream nor the guest. -/
theorem Records.of_same (hpre : Recording freq t.pre)
    (hmapped : t.post.eventMapped) (hfreq : t.post.tscFrequency = t.pre.tscFrequency)
    (hsourced : t.post.inputSource.isSome = t.pre.inputSource.isSome)
    (hevents : t.post.vm.state.events = t.pre.vm.state.events)
    (hguest : t.post.vm.state.guest = t.pre.vm.state.guest)
    (hrecording : t.post.inputRecording = t.pre.inputRecording)
    (hrandom : t.givenRandom freq = []) (hsignalled : t.signalled = [])
    (hgot : t.gotRequests = []) : Records freq t := by
  have hawaited : t.post.vm.awaited = t.pre.vm.awaited := by
    rw [VmContext.awaited, hguest, VmContext.awaited]
  have houtstanding : t.post.vm.outstanding = t.pre.vm.outstanding := by
    rw [VmContext.outstanding, hguest, VmContext.outstanding]
  have htidy : t.post.vm.Tidy := by
    refine ⟨hguest ▸ hpre.tidy.fits, ?_, hawaited ▸ hpre.tidy.told⟩
    unfold ReplyFits
    rw [hguest]
    exact hpre.tidy.reply
  exact .of_stream hpre hmapped (hfreq.trans hpre.frequency) (hsourced.trans hpre.sourced) hevents
    (hevents ▸ hpre.captures) hrecording htidy hawaited (houtstanding ▸ hpre.encoded) hrandom
    hsignalled hgot

/-- What is served in a RUN on a branch. -/
theorem Recording.serves (hpre : Recording freq b)
    {r : Option ExitReason} (hloop : RunLoop .ioctl b.vm ts r vm)
    (htracked : ∀ t ∈ ts, t.Tracked freq) :
    Serves freq b.vm.state.events.clear b.vm (ts.flatMap (givenRandom freq))
      (ts.flatMap signalled) (ts.flatMap gotRequests) vm ∧
    CapturesInputs vm.state.events ∧ (∀ action ∈ vm.outstanding, Encoded action) ∧
    ∀ action ∈ ts.flatMap gotRequests, Encoded action := by
  have hserves := hloop.serves hpre.tidy htracked
  have hencoded := hpre.encoded
  rw [hserves.outstanding] at hencoded
  refine ⟨hserves, ?_, fun action haction => hencoded action (mem_append_right _ haction),
    fun action haction => hencoded action (mem_append_left _ haction)⟩
  intro kind hkind
  rw [hserves.random.accepts, resumedEvents, accepts_clear]
  exact hpre.captures kind hkind

theorem records_returned {exit : VmExit}
    (hrun : RunIoctl b.vm ts (some exit.exitReason) vm) (hreports : exit.Reports vm)
    (htracked : ∀ t ∈ ts, t.Tracked freq) (hpre : Recording freq b) :
    Records freq ⟨b, .run ts (some exit), b.ran vm exit⟩ := by
  obtain ⟨hserves, hcaptures, hwaiting, hgot⟩ : _ := by
    cases hrun with
    | returned hloop => exact hpre.serves hloop htracked
  obtain ⟨line, recording, sink, hran⟩ := b.ran_eq vm exit
  have hvm : (b.ran vm exit).vm = vm := by rw [hran]
  have hrecording : (b.ran vm exit).inputRecording =
      b.inputRecording.recordAll (EventRecord.stream vm.state.events.buffer) freq := by
    rw [Branch.ran_of_mapped hpre.mapped hreports, ← hpre.frequency]
    exact Branch.drainRecords_recording (by exact hpre.sourced) _
  rw [InputRecording.recordAll_eq] at hrecording
  have hrandom := hserves.random.drained hpre.accepts_random hpre.place
  have hio := hserves.io.drained hpre.accepts_io hpre.place
  refine ⟨⟨?_, ?_, ?_, ?_, ?_, ?_, ?_⟩, ?_, ?_, ?_, hgot⟩
  · rw [hran]
    exact hpre.mapped
  · rw [hran]
    exact hpre.frequency
  · rw [hran]
    exact hpre.sourced
  · rw [hvm]
    exact hcaptures
  · rw [hvm]
    exact hrun.place
  · rw [hvm]
    exact hserves.tidy
  · rw [hvm]
    exact hwaiting
  · rw [Branch.takenRandom, Branch.takenRandom, hvm, hrecording, append_assoc, append_assoc]
    exact congrArg _ hrandom.symm
  · rw [Branch.takenIo, Branch.takenIo, hvm, hrecording, append_assoc, map_append,
      append_assoc, map_filterMap]
    exact congrArg _ hio.symm
  · rw [hvm]
    exact hserves.awaited

theorem records_failed {r : Option ExitReason}
    (hloop : RunLoop .ioctl b.vm ts r vm) (htracked : ∀ t ∈ ts, t.Tracked freq)
    (hpre : Recording freq b) (hplace : vm.state.events.pendingExitLoc = none)
    (hrandom : (stream vm.state.events.buffer).filterMap (randomInput freq) = [])
    (hio : (stream vm.state.events.buffer).filterMap (ioInput freq) = []) :
    Records freq ⟨b, .run ts none, { b with vm }⟩ := by
  obtain ⟨hserves, hcaptures, hwaiting, hgot⟩ := hpre.serves hloop htracked
  have hrandom' := hserves.random.drained hpre.accepts_random hpre.place
  have hio' := hserves.io.drained hpre.accepts_io hpre.place
  have hnoIo : (stream vm.state.events.buffer).filterMap (ioReading freq).keep = [] := by
    rw [← map_nil, ← hio, map_filterMap]
    rfl
  have hnoRandom :
      (stream vm.state.events.buffer).filterMap (randomReading freq).keep = [] := hrandom
  rw [hnoRandom, nil_append] at hrandom'
  rw [hnoIo, nil_append] at hio'
  refine ⟨⟨hpre.mapped, hpre.frequency, hpre.sourced, hcaptures, hplace, hserves.tidy, hwaiting⟩,
    ?_, ?_, hserves.awaited, hgot⟩
  · rw [Branch.takenRandom, Branch.takenRandom, hrandom', append_assoc]
    rfl
  · rw [Branch.takenIo, Branch.takenIo, hio', append_assoc]
    rfl

theorem Checkpoint.branchInner_recording {c : Checkpoint S} {id : Nat} {source : Option S}
    {force : Bool} {host : BranchHost}
    (h : c.branchInner id source force host = .ok b) (hsourced : source.isSome)
    (hreply : c.vm.ReplyFits) :
    Recording c.tscFrequency b ∧ b.inputRecording = c.inputRecording ∧
      b.Settled c.tscFrequency := by
  obtain ⟨config, hcaptures, hevents⟩ := branchInner_opened h
  rw [hsourced] at hcaptures
  obtain ⟨vm, config', hfork, -, -, rfl⟩ := branchInner_spec h
  have hchild := Idle.of_fork hfork hreply
  have hforced : (Branch.forcedVm force host.rdrandCopied vm).Idle := by
    unfold Branch.forcedVm
    split
    · exact hchild.ioctl (.setRdrandConfig _ _) (by simp)
    · exact hchild
  have hidle := hforced.ioctl (.setEventConfig config' host.eventCopied host.eventAllocated)
    (by simp)
  refine ⟨⟨rfl, rfl, hsourced, ?_, ?_, hidle.tidy, ?_⟩, rfl, ?_, ?_, hidle.awaited⟩
  · rw [hevents]
    exact hcaptures.accepts_recording rfl rfl
  · rw [hevents]
    rfl
  · intro action haction
    exact absurd (hidle.outstanding ▸ haction) not_mem_nil
  all_goals
    rw [hevents]
    rfl

/-- Every step records what it serves, as long as it saves the inputs. -/
theorem BranchStep.Valid.records (h : t.Valid (Tracked freq))
    (hpre : Recording freq t.pre) (hqueues : t.QueuesRequests) (hsaves : t.SavesInputs freq) :
    Records freq t := by
  cases h with
  | @ioctl b call hcall =>
    obtain ⟨categories, hcategories, hevents⟩ := hcall.events hpre.attached
    obtain ⟨htidy, hawaited⟩ := hpre.tidy.ioctl call
    refine .of_stream hpre hpre.mapped hpre.frequency hpre.sourced hevents ?_ rfl htidy hawaited ?_
      rfl rfl rfl
    · dsimp only
      rw [hevents]
      rcases hcategories with rfl | ⟨config, hcaptures, rfl⟩
      · exact hpre.captures
      · rw [hpre.sourced] at hcaptures
        exact hcaptures.accepts_recording hpre.attached rfl
    · exact hpre.encoded_ioctl call hqueues
  | returned hrun hreports hsteps => exact records_returned hrun hreports hsteps hpre
  | failed hrun hsteps =>
    rcases hrun.cases_loop with ⟨rfl, rfl⟩ | ⟨r, hloop⟩
    · exact .of_same hpre hpre.mapped rfl rfl rfl rfl rfl rfl rfl rfl
    · obtain ⟨hplace, hrandom, hio⟩ := hsaves hloop.ne_nil
      exact records_failed hloop hsteps hpre hplace hrandom hio
  | map hmemory =>
    exact .of_same hpre hpre.mapped rfl rfl (by rw [hmemory]) (by rw [hmemory]) rfl rfl rfl rfl
  | note hnoted =>
    exact .of_same hpre (hnoted.eventMapped hpre.mapped) hnoted.tscFrequency hnoted.sourced
      (by rw [hnoted.vm]) (by rw [hnoted.vm]) hnoted.inputRecording rfl rfl rfl
  | @renew b b' id source force host hsource hbranch =>
    have hsourced : source.isSome := by
      rcases hsource with ⟨-, rfl⟩ | ⟨-, hsome⟩
      · exact hpre.sourced
      · exact hsome
    have hsettled : b.Settled freq := hsaves
    obtain ⟨hrecording, hinputs, hsettled'⟩ :=
      Checkpoint.branchInner_recording hbranch hsourced hpre.tidy.reply
    have hfreq : b.freeze.tscFrequency = freq := hpre.frequency
    rw [hfreq] at hrecording hsettled'
    refine ⟨hrecording, ?_, ?_, ?_, forall_mem_nil _⟩
    · rw [Branch.takenRandom, Branch.takenRandom, hinputs, hsettled.random, hsettled'.random]
      exact append_nil _
    · rw [Branch.takenIo, Branch.takenIo, hinputs, hsettled.io, hsettled'.io]
      exact append_nil _
    · rw [hsettled.awaited, hsettled'.awaited]
      rfl

/-! ## Along a path -/

/-- A list of which every step of a session appends to. -/
def growingLedger {β : Type} (held : Branch S → List β) (added : BranchStep S → List β) :
    Ledger (Branch S) (BranchStep S) β where
  pre t := t.pre
  post t := t.post
  held := held
  taken := added
  handed _ := []

def awaitedLedger (S : Type) : Ledger (Branch S) (BranchStep S) (List UInt8) where
  pre t := t.pre
  post t := t.post
  held b := b.vm.awaited
  taken t := t.signalled
  handed t := t.gotRequests.map PendingIoAction.data

namespace Session

variable {b b' : Branch S} {ts : List (BranchStep S)}

theorem growing {β : Type} (h : Session P b ts b') (held : Branch S → List β)
    (added : BranchStep S → List β) (hstep : ∀ t ∈ ts, held t.pre ++ added t = held t.post) :
    held b ++ ts.flatMap added = held b' := by
  have hpath : (growingLedger held added).Path b ts b' := h.ledgerPath (fun _ => rfl) fun _ => rfl
  have hbalanced := hpath.balanced fun t ht => (hstep t ht).trans (nil_append _).symm
  have hnone : ts.flatMap (growingLedger held added).handed = [] :=
    flatMap_eq_nil_iff.mpr fun _ _ => rfl
  rw [hnone, nil_append] at hbalanced
  exact hbalanced

theorem records (h : Session (Tracked freq) b ts b') (hb : Recording freq b)
    (hqueues : ∀ t ∈ ts, t.QueuesRequests) (hsaves : ∀ t ∈ ts, t.SavesInputs freq) :
    ∀ t ∈ ts, Records freq t := by
  have hall := (h.walk.invariant (I := Recording freq) (fun t ht hpre =>
    ((h.valid t ht).records hpre (hqueues t ht) (hsaves t ht)).recording) hb).1
  exact fun t ht => (h.valid t ht).records (hall t ht).1 (hqueues t ht) (hsaves t ht)

end Session

theorem decodeRequest_encodeRequest (target : BashTarget) (command : String) (recordOutput : Bool) :
    (decodeRequest (encodeRequest target command recordOutput)).isSome := by
  have hmagic : ∀ rest, takeField 4 (leBytes 4 IO_REQUEST_MAGIC ++ rest) =
      some (IO_REQUEST_MAGIC, rest) :=
    takeField_leBytes (by decide)
  have hflags : ∀ flags rest, takeField 4 (leBytes 4 flags ++ rest) =
      some (ofLeBytes (leBytes 4 flags), rest) :=
    fun flags => takeField_append (leBytes_length 4 flags)
  simp only [decodeRequest, encodeRequest, append_assoc, hmagic, hflags, bind_eq_bind,
    bind_some, ne_eq, not_true_eq_false, if_false, isSome_some]

/-- A checkpoint of a VM that was created and booted, with nothing recorded. -/
structure Checkpoint.IsRoot (c : Checkpoint S) : Prop where
  recording : c.inputRecording = {}
  booted : ∃ memory supply machine setup tscFrequency pebsSupported vm ts,
    RootVm.new memory supply machine setup tscFrequency pebsSupported = .ok vm ∧
      History vm ts c.vm

theorem Checkpoint.IsRoot.replyFits {c : Checkpoint S} (h : c.IsRoot) : c.vm.ReplyFits := by
  obtain ⟨memory, supply, machine, setup, tscFrequency, pebsSupported, vm, ts, hnew, hhistory⟩ :=
    h.booted
  have hvm : vm.ReplyFits := by
    unfold RootVm.new at hnew
    split at hnew
    · cases hnew
    split at hnew
    · cases hnew
    · cases hnew
      exact Nat.zero_le _
  exact (hhistory.walk.invariant (I := ReplyFits)
    (fun t ht hpre => (hhistory.valid t ht).keepsReply hpre) hvm).2

theorem map_some_filterMap {α β : Type} {f : α → Option β} {xs : List α}
    (h : ∀ x ∈ xs, (f x).isSome) : (xs.filterMap f).map some = xs.map f := by
  induction xs with
  | nil => rfl
  | cons x xs ih =>
    obtain ⟨hfirst, hrest⟩ := forall_mem_cons.mp h
    obtain ⟨y, hy⟩ := isSome_iff_exists.mp hfirst
    rw [filterMap_cons_some hy, map_cons, ih hrest, map_cons, hy]

theorem orderly_of_hypercall {it : Iteration} (h : it.exited.hypercall = none) : it.Orderly := by
  have hgets : it.exited.getsRequest = false := by
    rw [Bool.eq_false_iff, ne_eq, getsRequest_iff, h]
    exact nofun
  refine ⟨fun hdelivered => absurd ?_ hdelivered, fun hregisters => ?_⟩
  · rw [Iteration.delivered, if_pos (.inl hgets)]
  · rw [h] at hregisters
    cases hregisters

def draws (ctx : VmContext) : VmContext :=
  ctx.exitWith 1 (fun | .vmExitReason => 57 | _ => 0) 0 0

def crashes (ctx : VmContext) : VmContext :=
  ctx.exitWith 1 (fun | .vmExitReason => 2 | _ => 0) 0 0

theorem ofNewVm_isRoot (pending : Option IoInput) : (Checkpoint.ofNewVm pending).IsRoot :=
  ⟨rfl, _, _, _, _, _, _, newVm, [], newVm_eq, rfl, forall_mem_nil _⟩

def sourcedBranch : Branch RecordedInputSource :=
  match (Checkpoint.ofNewVm none).branchInner 0 (some { recording := {} }) false
    { fork := bareFork } with
  | .ok b => b
  | .error _ => bootBranch

theorem sourcedBranch_eq : (Checkpoint.ofNewVm none).branchInner 0 (some { recording := {} }) false
    { fork := bareFork } = .ok sourcedBranch := by
  have hok : ((Checkpoint.ofNewVm none).branchInner 0 (some { recording := {} }) false
      { fork := bareFork }).isOk := by decide +kernel
  unfold sourcedBranch
  cases hbranch : (Checkpoint.ofNewVm none).branchInner 0 (some { recording := {} }) false
      { fork := bareFork } with
  | ok b => rfl
  | error e =>
    rw [hbranch] at hok
    cases hok

def drawIteration : Iteration :=
  .simulate .ioctl sourcedBranch.vm draws

theorem drawIteration_valid : drawIteration.Valid :=
  Iteration.simulate_valid (by decide +kernel) (ran_exitWith _ _ _ _ _)

theorem drawIteration_tracked : drawIteration.step.Tracked 1000 := by
  refine ⟨⟨?_, ?_, fun _ => ?_⟩, orderly_of_hypercall (by decide +kernel)⟩
  · unfold SavesRandom
    decide +kernel
  · unfold SavesRequest
    decide +kernel
  · decide +kernel

def drawStep : BranchStep RecordedInputSource :=
  BranchStep.simulate sourcedBranch draws

end Lab

end Bedrock
