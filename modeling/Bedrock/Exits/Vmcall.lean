import Bedrock.Exits.Mmio

/-!
# Hypercalls

The number is in RAX and the result returns in RAX.  Copies between the host and
guest memory go through small chunks or page by page; a failure in the middle
keeps what was already copied.
-/

namespace Bedrock

open Support

variable (p : Part) {G : ActionClass} [Covers G GuestAction]

/-! ## Moving bytes -/

def IO_COPY_CHUNK : Nat := 256

/-- `copy_request_to_guest`.  Each round moves at least one byte, so as many rounds
as bytes suffice. -/
def copyRequestToGuest : (rounds gpa : Nat) → List UInt8 → Program MemoryError VmContext Unit
  | 0, _, _ => pure ()
  | rounds + 1, gpa, bytes =>
    if bytes = [] then pure ()
    else do
      check id (← writeGuestMemory gpa (bytes.take IO_COPY_CHUNK))
      copyRequestToGuest rounds (gpa + IO_COPY_CHUNK) (bytes.drop IO_COPY_CHUNK)

/-- `copy_response_from_guest`: fills the response buffer from `offset` on. -/
def copyResponseFromGuest : (rounds gpa offset len : Nat) → Program MemoryError VmContext Unit
  | 0, _, _, _ => pure ()
  | rounds + 1, gpa, offset, len =>
    if len ≤ offset then pure ()
    else do
      let read ← readGuestMemory (gpa + offset) (min (len - offset) IO_COPY_CHUNK)
      check id read.2
      modifyGuest fun g => { g with
        ioChannel := { g.ioChannel with
          responseBuf := splice g.ioChannel.responseBuf offset read.1 } }
      copyResponseFromGuest rounds gpa (offset + IO_COPY_CHUNK) len

/-- `copy_serial_console_from_guest`: the bytes end up in a staging buffer that
only the console event reads. -/
def copySerialConsoleFromGuest : (rounds gpa len : Nat) →
    Program MemoryError VmContext (List UInt8)
  | 0, _, _ => pure []
  | rounds + 1, gpa, len =>
    if len = 0 then pure []
    else do
      let read ← readGuestMemory gpa (min len IO_COPY_CHUNK)
      check id read.2
      let rest ← copySerialConsoleFromGuest rounds (gpa + IO_COPY_CHUNK) (len - IO_COPY_CHUNK)
      pure (read.1 ++ rest)

/-- Bytes of `[gva, gva + len)` that lie in the page of `gva`. -/
def inPage (gva : UInt64) (len : Nat) : Nat :=
  min (4096 - (gva &&& 0xFFF).toNat) len

/-- `read_guest_id`, page by page. -/
def readGuestId : (rounds : Nat) → (gva : UInt64) → (len : Nat) →
    Program Unit VmContext (List UInt8)
  | 0, _, _ => pure []
  | rounds + 1, gva, len =>
    if len = 0 then pure []
    else do
      let n := inPage gva len
      let gpa ← translateGvaToGpa gva
      let read ← readGuestMemory gpa n
      check (fun _ => ()) read.2
      let rest ← readGuestId rounds (gva + UInt64.ofNat n) (len - n)
      pure (read.1 ++ rest)

/-- Why a write from a hypercall failed. -/
inductive WriteGuest
  | pool | fault
  deriving DecidableEq, Repr

/-- The loop of `ensure_guest_writable`. -/
def ensurePagesWritable : (rounds : Nat) → (gva : UInt64) → (len : Nat) →
    Program WriteGuest VmContext Unit
  | 0, _, _ => pure ()
  | rounds + 1, gva, len =>
    if len = 0 then pure ()
    else do
      let n := inPage gva len
      let gpa ← (translateGvaToGpa gva).mapExit fun _ => .fault
      if (← handleCowFault gpa).isNone = true then .exit .pool
      else ensurePagesWritable rounds (gva + UInt64.ofNat n) (len - n)

/-- `ensure_guest_writable` -/
def ensureGuestWritable (gva : UInt64) (len : Nat) : Program WriteGuest VmContext Unit := do
  if (← isForked) = false then pure () else ensurePagesWritable len gva len

/-- `write_guest_bytes`, page by page. -/
def writeGuestBytes : (rounds : Nat) → (gva : UInt64) → List UInt8 →
    Program WriteGuest VmContext Unit
  | 0, _, _ => pure ()
  | rounds + 1, gva, bytes =>
    if bytes = [] then pure ()
    else do
      let n := inPage gva bytes.length
      let gpa ← (translateGvaToGpa gva).mapExit fun _ => .fault
      check (fun _ => .fault) (← writeGuestMemory gpa (bytes.take n))
      writeGuestBytes rounds (gva + UInt64.ofNat n) (bytes.drop n)

instance copyRequestToGuest_built (rounds gpa : Nat) (bytes : List UInt8) :
    Built (Framed p G) (copyRequestToGuest rounds gpa bytes) := by
  induction rounds generalizing gpa bytes with
  | zero => exact .pure _
  | succ rounds ih =>
    unfold copyRequestToGuest
    infer_instance

instance copyResponseFromGuest_built [p.Other .response] (rounds gpa offset len : Nat) :
    Built (Framed p G) (copyResponseFromGuest rounds gpa offset len) := by
  induction rounds generalizing offset with
  | zero => exact .pure _
  | succ rounds ih =>
    unfold copyResponseFromGuest
    infer_instance

instance copySerialConsoleFromGuest_built (rounds gpa len : Nat) :
    Built (Framed p G) (copySerialConsoleFromGuest rounds gpa len) := by
  induction rounds generalizing gpa len with
  | zero => exact .pure _
  | succ rounds ih =>
    unfold copySerialConsoleFromGuest
    infer_instance

instance readGuestId_built (rounds : Nat) (gva : UInt64) (len : Nat) :
    Built (Framed p G) (readGuestId rounds gva len) := by
  induction rounds generalizing gva len with
  | zero => exact .pure _
  | succ rounds ih =>
    unfold readGuestId
    infer_instance

instance ensurePagesWritable_built [Covers G HandlerAction] (rounds : Nat) (gva : UInt64) (len : Nat) :
    Built (Framed p G) (ensurePagesWritable rounds gva len) := by
  induction rounds generalizing gva len with
  | zero => exact .pure _
  | succ rounds ih =>
    unfold ensurePagesWritable
    infer_instance

instance [Covers G HandlerAction] (gva : UInt64) (len : Nat) :
    Built (Framed p G) (ensureGuestWritable gva len) := by
  unfold ensureGuestWritable
  infer_instance

instance writeGuestBytes_built (rounds : Nat) (gva : UInt64) (bytes : List UInt8) :
    Built (Framed p G) (writeGuestBytes rounds gva bytes) := by
  induction rounds generalizing gva bytes with
  | zero => exact .pure _
  | succ rounds ih =>
    unfold writeGuestBytes
    infer_instance

/-! ## The hypercalls -/

/-- Return `rax` to the guest and skip the VMCALL. -/
def vmcallReturn (rax : UInt64) (r : ExitHandlerResult) : Handler ExitHandlerResult := do
  modifyGprs fun gprs => { gprs with rax }
  advanceAndReturn r

/-- The `!0` most hypercalls return on failure. -/
def VMCALL_FAILED : UInt64 := 0xFFFFFFFFFFFFFFFF

/-- `HYPERCALL_SHUTDOWN` -/
def vmcallShutdown : Handler ExitHandlerResult := do
  capture .shutdown
  emit .flushSerialLine
  advanceAndReturn (.exitToUserspace .vmcallShutdown)

/-- `HYPERCALL_SNAPSHOT` -/
def vmcallSnapshot : Handler ExitHandlerResult := do
  capture .snapshot
  advanceAndReturn (.exitToUserspace .vmcallSnapshot)

def FB_ERR_BAD_SIZE : UInt64 := 0xFFFFFFFFFFFFFFFF

def FB_ERR_BAD_ID_LEN : UInt64 := 0xFFFFFFFFFFFFFFFE

def FB_ERR_ID_NOT_RESIDENT : UInt64 := 0xFFFFFFFFFFFFFFFD

def FB_ERR_BUFFER_NOT_RESIDENT : UInt64 := 0xFFFFFFFFFFFFFFFC

def FB_ERR_NO_SLOTS : UInt64 := 0xFFFFFFFFFFFFFFFB

/-- Append the buffer if its slot can be allocated. -/
def pushFeedbackBuffer (info : FeedbackBufferInfo) : Handler ExitHandlerResult := do
  let index := (← getGuest).feedbackBuffers.length
  if (← heapAlloc) = false then vmcallReturn FB_ERR_NO_SLOTS .continue_
  else do
    modifyGuest fun g => { g with feedbackBuffers := g.feedbackBuffers ++ [info] }
    vmcallReturn (UInt64.ofNat index) (.exitToUserspace .vmcallFeedbackBuffer)

/-- `HYPERCALL_REGISTER_FEEDBACK_BUFFER` -/
def vmcallRegisterFeedbackBuffer : Handler ExitHandlerResult := do
  let gprs := (← getGuest).gprs
  let size := gprs.rcx
  let idLen := gprs.rsi.toNat
  if size = 0 ∨ FEEDBACK_BUFFER_MAX_PAGES * 4096 < size.toNat then
    vmcallReturn FB_ERR_BAD_SIZE .continue_
  else if idLen = 0 ∨ FEEDBACK_BUFFER_ID_MAX_LEN < idLen then
    vmcallReturn FB_ERR_BAD_ID_LEN .continue_
  else
    (readGuestId idLen gprs.rdx idLen).handle
      (fun _ => vmcallReturn FB_ERR_ID_NOT_RESIDENT .continue_)
      fun id =>
        (translateGvaRangeToGpas gprs.rbx size FEEDBACK_BUFFER_MAX_PAGES).handle
          (fun _ => vmcallReturn FB_ERR_BUFFER_NOT_RESIDENT .continue_)
          fun gpas => pushFeedbackBuffer ⟨gprs.rbx, size, gpas, id⟩

/-- `register_pebs_page` -/
def registerPebsPage (pageVa : UInt64) : Handler RegisterPebsPageResult := do
  if (← getConfig).pebsSupported = false then pure .unsupported
  else if pageVa &&& 0xFFF ≠ 0 then pure .misaligned
  else if (← pebsRegistered) = true then pure .alreadyRegistered
  else
    (translateGvaToGpa pageVa).handle (fun _ => pure .untranslatable)
      fun gpa => installPebsPage (pageBase gpa)

/-- `HYPERCALL_REGISTER_PEBS_PAGE` -/
def vmcallRegisterPebsPage : Handler ExitHandlerResult := do
  let result ← registerPebsPage (← getGuest).gprs.rbx
  vmcallReturn result.code (.exitToUserspace .vmcallPebsPage)

/-- Translate the page-aligned address a registration hypercall passes. -/
def translateAlignedPage (pageVa : UInt64) : Program Unit VmContext Nat :=
  if pageVa &&& 0xFFF ≠ 0 then .exit () else translateGvaToGpa pageVa

/-- `HYPERCALL_IO_REGISTER_PAGE`: queued requests survive, an undelivered one is
signalled again. -/
def vmcallIoRegisterPage : Handler ExitHandlerResult := do
  (translateAlignedPage (← getGuest).gprs.rbx).handle
    (fun _ => vmcallReturn VMCALL_FAILED (.exitToUserspace .vmcallIoRegisterPage))
    fun gpa => do
      modifyGuest fun g => { g with
        ioChannel := { g.ioChannel with
          pageGpa := gpa, requestDelivered := false, responseLen := 0 } }
      preCowIoChannelPage
      vmcallReturn 0 (.exitToUserspace .vmcallIoRegisterPage)

/-- `HYPERCALL_IO_GET_REQUEST` -/
def vmcallIoGetRequest : Handler ExitHandlerResult := do
  let chan := (← getGuest).ioChannel
  if chan.pageGpa = 0 then vmcallReturn VMCALL_FAILED .continue_
  else if chan.request = [] then vmcallReturn 0 .continue_
  else
    (copyRequestToGuest chan.request.length chan.pageGpa chan.request).handle
      (fun _ => vmcallReturn VMCALL_FAILED .continue_)
      fun _ => do
        consumeIoRequest
        vmcallReturn (UInt64.ofNat chan.request.length) .continue_

/-- `HYPERCALL_IO_PUT_RESPONSE` -/
def vmcallIoPutResponse : Handler ExitHandlerResult := do
  let g ← getGuest
  let len := min g.gprs.rbx.toNat IO_CHANNEL_BUF_SIZE
  let pageGpa := g.ioChannel.pageGpa
  if pageGpa = 0 then vmcallReturn VMCALL_FAILED (.exitToUserspace .vmcallIoResponse)
  else
    (copyResponseFromGuest len pageGpa 0 len).handle
      (fun _ => vmcallReturn VMCALL_FAILED (.exitToUserspace .vmcallIoResponse))
      fun _ => do
        modifyGuest fun g => { g with ioChannel := { g.ioChannel with responseLen := len } }
        let r ← vmcallReturn 0 (.exitToUserspace .vmcallIoResponse)
        emit (.ioChannel .response 0)
        pure r

/-- `HYPERCALL_SERIAL_REGISTER_PAGE` -/
def vmcallSerialRegisterPage : Handler ExitHandlerResult := do
  (translateAlignedPage (← getGuest).gprs.rbx).handle
    (fun _ => vmcallReturn VMCALL_FAILED .continue_)
    fun gpa => do
      modifyGuest fun g => { g with serialConsoleGpa := gpa }
      vmcallReturn 0 .continue_

/-- `HYPERCALL_SERIAL_WRITE` -/
def vmcallSerialWrite : Handler ExitHandlerResult := do
  let g ← getGuest
  let len := min g.gprs.rbx.toNat PAGE_SIZE
  if g.serialConsoleGpa = 0 then vmcallReturn VMCALL_FAILED .continue_
  else
    (copySerialConsoleFromGuest len g.serialConsoleGpa len).handle
      (fun _ => vmcallReturn VMCALL_FAILED .continue_)
      fun bytes => do
        let r ← vmcallReturn 0 .continue_
        emit .flushSerialLine
        emit (.append .serial bytes)
        pure r

instance (rax : UInt64) (r : ExitHandlerResult) : Built (Framed p G) (vmcallReturn rax r) := by
  unfold vmcallReturn
  infer_instance

instance [Captures G] [Emits G .serial] : Built (Framed p G) vmcallShutdown := by
  unfold vmcallShutdown
  infer_instance

instance [Captures G] : Built (Framed p G) vmcallSnapshot := by
  unfold vmcallSnapshot
  infer_instance

instance (info : FeedbackBufferInfo) : Built (Framed p G) (pushFeedbackBuffer info) := by
  unfold pushFeedbackBuffer
  infer_instance

instance (pageVa : UInt64) : Built (Framed p G) (translateAlignedPage pageVa) := by
  unfold translateAlignedPage
  infer_instance

instance : Built (Framed p G) vmcallRegisterFeedbackBuffer := by
  unfold vmcallRegisterFeedbackBuffer
  infer_instance

instance [Covers G HandlerAction] (pageVa : UInt64) :
    Built (Framed p G) (registerPebsPage pageVa) := by
  unfold registerPebsPage
  infer_instance

instance [Covers G HandlerAction] : Built (Framed p G) vmcallRegisterPebsPage := by
  unfold vmcallRegisterPebsPage
  infer_instance

instance [p.Other .response] [p.Other .signal] [Covers G HandlerAction] :
    Built (Framed p G) vmcallIoRegisterPage := by
  unfold vmcallIoRegisterPage
  infer_instance

instance [p.Other .response] [p.Other .signal] [Consumes G] :
    Built (Framed p G) vmcallIoGetRequest := by
  unfold vmcallIoGetRequest
  infer_instance

instance [p.Other .response] [Emits G .ioChannel] : Built (Framed p G) vmcallIoPutResponse := by
  unfold vmcallIoPutResponse
  infer_instance

instance : Built (Framed p G) vmcallSerialRegisterPage := by
  unfold vmcallSerialRegisterPage
  infer_instance

instance [Emits G .serial] : Built (Framed p G) vmcallSerialWrite := by
  unfold vmcallSerialWrite
  infer_instance

/-! ## Controlled randomness -/

/-- Write the bytes served to the guest and report them; `pid` goes into the event. -/
def serveRandom (gva : UInt64) (pid : UInt32) (bytes : List UInt8) : Handler UInt64 :=
  (writeGuestBytes bytes.length gva bytes).handle (fun _ => pure VMCALL_FAILED) fun _ => do
    emit (.append .randomness
      (randomPayload 0 pid .getRandom 0 (bytes.take RANDOM_REPLY_MAX)) randomness_ne_exit)
    pure (UInt64.ofNat bytes.length)

/-- `HYPERCALL_GET_RANDOM` in `SeededRng` mode: the pages are made writable before
the generator advances, so that a retry produces the same bytes. -/
def getRandomSeeded (gva : UInt64) (cap : Nat) (pid : UInt32) : Handler ExitHandlerResult :=
  (ensureGuestWritable gva cap).handle
    (fun failure =>
      if failure = .pool then pure (.exitToUserspace .poolExhausted)
      else vmcallReturn VMCALL_FAILED .continue_)
    fun _ => do
      let bytes := ((← getGuest).devices.random.fill cap cap).1
      modifyDevices fun dev => { dev with random := (dev.random.fill cap cap).2 }
      let rax ← serveRandom gva pid bytes
      vmcallReturn rax .continue_

def clearRandomRequest : Handler Unit :=
  modifyDevices fun dev => { dev with random := dev.random.clearRequest }

/-- `HYPERCALL_GET_RANDOM` in `ExitToUserspace` mode once the reply is staged. -/
def getRandomStaged (random : RandomState) : Handler ExitHandlerResult :=
  let bytes := random.reply.take random.reqLen
  (ensureGuestWritable random.bufGva bytes.length).handle
    (fun failure =>
      if failure = .pool then pure (.exitToUserspace .poolExhausted)
      else do
        clearRandomRequest
        vmcallReturn VMCALL_FAILED .continue_)
    fun _ => do
      let rax ← serveRandom random.bufGva random.pid bytes
      clearRandomRequest
      vmcallReturn rax .continue_

/-- `HYPERCALL_GET_RANDOM` -/
def vmcallGetRandom : Handler ExitHandlerResult := do
  let g ← getGuest
  let cap := min g.gprs.rcx.toNat RANDOM_REPLY_MAX
  let pid := g.gprs.rdx.toUInt32
  if g.devices.random.mode = .seededRng then getRandomSeeded g.gprs.rbx cap pid
  else if g.devices.random.needsGetRandomExit = true then do
    -- RIP stays, so that the VMCALL runs again once the reply is staged
    modifyDevices fun dev => { dev with random := dev.random.beginRequest g.gprs.rbx cap pid }
    pure (.exitToUserspace .vmcallGetRandom)
  else getRandomStaged g.devices.random

/-- `handle_vmcall` -/
def handleVmcall : Handler ExitHandlerResult := do
  let g ← getGuest
  match g.gprs.rax.toNat with
  | 0 => vmcallShutdown
  | 1 => vmcallSnapshot
  | 2 => vmcallRegisterFeedbackBuffer
  | 3 => vmcallRegisterPebsPage
  | 4 => vmcallIoRegisterPage
  | 5 => vmcallIoGetRequest
  | 6 => vmcallIoPutResponse
  | 7 => advanceAndReturn (.exitToUserspace .vmcallReady)
  | 8 => vmcallSerialRegisterPage
  | 9 => vmcallSerialWrite
  | 10 => vmcallReturn 0 (.exitToUserspace .vmcallFileFetch)
  | 11 => vmcallGetRandom
  | 12 => vmcallReturn 0 (.exitToUserspace .vmcallFileStore)
  | _ => pure (.exitToUserspace .vmcall)

instance [Emits G .randomness] (gva : UInt64) (pid : UInt32) (bytes : List UInt8) :
    Built (Framed p G) (serveRandom gva pid bytes) := by
  unfold serveRandom
  infer_instance

instance [p.Other .random] [Covers G HandlerAction] [Emits G .randomness] (gva : UInt64)
    (cap : Nat) (pid : UInt32) : Built (Framed p G) (getRandomSeeded gva cap pid) := by
  unfold getRandomSeeded
  infer_instance

instance [p.Other .random] : Built (Framed p G) clearRandomRequest := by
  unfold clearRandomRequest
  infer_instance

instance [p.Other .random] [Covers G HandlerAction] [Emits G .randomness] (random : RandomState) :
    Built (Framed p G) (getRandomStaged random) := by
  unfold getRandomStaged
  infer_instance

instance [p.Other .random] [Covers G HandlerAction] [Emits G .randomness] :
    Built (Framed p G) vmcallGetRandom := by
  unfold vmcallGetRandom
  infer_instance

instance [p.Other .random] [p.Other .response] [p.Other .signal] [Covers G HandlerAction]
    [Captures G] [Consumes G] [∀ kind, Emits G kind] : Built (Framed p G) handleVmcall := by
  unfold handleVmcall
  refine .bind inferInstance fun g => ?_
  split <;> infer_instance

end Bedrock
