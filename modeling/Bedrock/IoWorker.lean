import Bedrock.Lab.Branch

/-!
# The guest's I/O worker

`bedrock_io_work_fn` fetches a request with GET_REQUEST, runs it and answers with
PUT_RESPONSE.  How allocations, the command and reading its output turn out is given; what
the worker does is the sequence of its hypercalls.
-/

namespace Bedrock

open Support

namespace IoWorker

def VMCALL_ERR : UInt64 := 0xFFFFFFFFFFFFFFFF

/-- `struct io_request_header` -/
structure RequestHeader where
  magic : Nat
  flags : Nat
  payloadLen : Nat

def REQUEST_HEADER_SIZE : Nat := 12

/-- `struct io_response_header` -/
structure ResponseHeader where
  magic : Nat
  flags : Nat
  status : Int
  exitCode : Int
  outputLen : Nat
  deriving DecidableEq

inductive Hypercall
  | getRequest (reqLen : UInt64)
  | putResponse (response : ResponseHeader)
  deriving DecidableEq

/-- What a worker meets. -/
structure Env where
  /-- the buffer for the command is allocated -/
  cmdAllocated : Bool
  /-- what GET_REQUEST returns -/
  reqLen : UInt64
  sharedPage : List UInt8
  /-- the copy of the payload is allocated -/
  payloadAllocated : Bool
  /-- what `build_command`, `call_usermodehelper` and `read_output_file` return -/
  buildCommand : Int
  exitCode : Int
  dataRead : Int

def IsRequest (reqLen : UInt64) : Prop := reqLen ≠ 0 ∧ reqLen ≠ VMCALL_ERR

instance (reqLen : UInt64) : Decidable (IsRequest reqLen) := inferInstanceAs (Decidable (_ ∧ _))

def requestHeader (page : List UInt8) : RequestHeader :=
  ⟨ofLeBytes (page.take 4), ofLeBytes ((page.drop 4).take 4), ofLeBytes ((page.drop 8).take 4)⟩

def EINVAL : Int := 22

/-- The payload is `<container>\0<cmd>\0`. -/
def parsePayload (payload : List UInt8) : Except Int (List UInt8 × List UInt8) :=
  let container := payload.takeWhile (· ≠ 0)
  if payload.length = 0 then .error (-EINVAL)
  else if container.length = payload.length then .error (-EINVAL)
  else
    let rest := payload.drop (container.length + 1)
    let command := rest.takeWhile (· ≠ 0)
    if command.length = rest.length then .error (-EINVAL) else .ok (container, command)

namespace Env

/-- The first phase: the request is copied out of the shared page, or the worker ends. -/
def fetch (env : Env) : Option (RequestHeader × List UInt8) :=
  let header := requestHeader env.sharedPage
  if ¬IsRequest env.reqLen then none
  else if env.reqLen.toNat < REQUEST_HEADER_SIZE then none
  else if header.magic ≠ IO_REQUEST_MAGIC then none
  else if REQUEST_HEADER_SIZE + header.payloadLen > env.reqLen.toNat then none
  else if header.payloadLen > 0 ∧ env.payloadAllocated = false then none
  else some (header, (env.sharedPage.drop REQUEST_HEADER_SIZE).take header.payloadLen)

/-- The other phases: the command is built and run, and its result answered. -/
def respond (env : Env) (header : RequestHeader) (payload : List UInt8) : ResponseHeader :=
  let exitCode := match parsePayload payload with
    | .error e => e
    | .ok _ => if env.buildCommand ≠ 0 then env.buildCommand else env.exitCode
  let dataRead := if header.flags.testBit 0 then env.dataRead else 0
  ⟨Lab.IO_RESPONSE_MAGIC, header.flags, min dataRead 0, exitCode, dataRead.toNat⟩

/-- `bedrock_io_work_fn` -/
def workFn (env : Env) : List Hypercall :=
  if env.cmdAllocated = false then []
  else .getRequest env.reqLen ::
    match env.fetch with
    | none => []
    | some (header, payload) => [.putResponse (env.respond header payload)]

end Env

def responsesBeforeNext : List Hypercall → Nat
  | .putResponse _ :: calls => responsesBeforeNext calls + 1
  | _ => 0

def Answered : List Hypercall → Prop
  | [] => True
  | .putResponse _ :: calls => Answered calls
  | .getRequest reqLen :: calls =>
    (¬IsRequest reqLen ∨ responsesBeforeNext calls = 1) ∧ Answered calls

theorem fetch_isSome_iff (env : Env) : env.fetch.isSome ↔
    IsRequest env.reqLen ∧ REQUEST_HEADER_SIZE ≤ env.reqLen.toNat ∧
      (requestHeader env.sharedPage).magic = IO_REQUEST_MAGIC ∧
      REQUEST_HEADER_SIZE + (requestHeader env.sharedPage).payloadLen ≤ env.reqLen.toNat ∧
      ((requestHeader env.sharedPage).payloadLen = 0 ∨ env.payloadAllocated) := by
  unfold Env.fetch
  grind

/-- A worker answers its request exactly if the request is well formed and the copy of its
payload can be allocated; otherwise the request is lost. -/
theorem workFn_answered_iff (env : Env) : Answered env.workFn ↔
    env.cmdAllocated = false ∨ ¬IsRequest env.reqLen ∨
      REQUEST_HEADER_SIZE ≤ env.reqLen.toNat ∧
        (requestHeader env.sharedPage).magic = IO_REQUEST_MAGIC ∧
        REQUEST_HEADER_SIZE + (requestHeader env.sharedPage).payloadLen ≤ env.reqLen.toNat ∧
        ((requestHeader env.sharedPage).payloadLen = 0 ∨ env.payloadAllocated = true) := by
  have hfetch := fetch_isSome_iff env
  unfold Env.workFn
  split
  next hcmd => simp [Answered, hcmd]
  next hcmd =>
    cases hsome : env.fetch with
    | none =>
      rw [hsome] at hfetch
      simp only [Answered, responsesBeforeNext, hcmd]
      tauto
    | some fetched =>
      rw [hsome, Option.isSome_some, eq_self, true_iff] at hfetch
      simp only [Answered, responsesBeforeNext, hfetch]
      tauto

def starvedEnv : Env where
  cmdAllocated := true
  reqLen := 14
  sharedPage := leBytes 4 IO_REQUEST_MAGIC ++ leBytes 4 0 ++ leBytes 4 2 ++ [0, 0]
  payloadAllocated := false
  buildCommand := 0
  exitCode := 0
  dataRead := 0

theorem starved_request_unanswered :
    starvedEnv.workFn = [.getRequest 14] ∧ ¬Answered starvedEnv.workFn := by
  have hrun : starvedEnv.workFn = [.getRequest 14] := by decide
  refine ⟨hrun, ?_⟩
  rw [hrun]
  simp [Answered, responsesBeforeNext, IsRequest, VMCALL_ERR]

end IoWorker

end Bedrock
