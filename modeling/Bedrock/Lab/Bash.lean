import Bedrock.Lab.Branch

/-!
# Waiting for a response

`run_until` and `run_io_action` each have a loop of their own around RUN.  What the first
serves and passes over the second should pass over too, so that the response of a bash
command arrives whatever the guest does in the meantime.
-/

namespace Bedrock

open Support Program List

namespace Lab

namespace Branch

variable {S : Type} [InputSource S]

/-- The VM exits one after the other, and each time `run_until`, for whatever target,
serves the exit and goes on. -/
inductive PassesOver : Branch S → List Turn → List VmExit → Branch S → Prop
  | nil (b : Branch S) : PassesOver b [] [] b
  | cons {b b₁ b₂ b' : Branch S} {turn : Turn} {turns : List Turn} {exit : VmExit}
      {exits : List VmExit} {target : VirtTime} (hrun : runVm turn b = (.ok exit, b₁))
      (hserve : serve target exit turn b₁ = (.ok none, b₂)) (hrest : PassesOver b₂ turns exits b') :
      PassesOver b (turn :: turns) (exit :: exits) b'

/-- The exits only `run_until` knows. -/
def OnlyRunUntil (kind : ExitKind) : Prop :=
  kind = .vmcallGetRandom ∨ kind = .stopTscReached

instance (kind : ExitKind) : Decidable (OnlyRunUntil kind) :=
  inferInstanceAs (Decidable (_ ∨ _))

variable {b' b : Branch S} {turn : Turn} {exit : VmExit} {b₁ : Branch S}

theorem serveIo_of_fed
    (hkind : exit.kind = .rdrand ∨ exit.kind = .rdseed) (hfed : feedRng turn b = (.ok .fed, b')) :
    serveIo exit turn b = (.ok none, b') := by
  rcases hkind with hkind | hkind
  all_goals
    simp only [serveIo, hkind]
    exact bind_ok hfed

theorem fed_of_serve {target : VirtTime} (hkind : exit.kind = .rdrand ∨ exit.kind = .rdseed)
    (h : serve target exit turn b = (.ok none, b')) : feedRng turn b = (.ok .fed, b') := by
  have hserve : (feedRng turn >>= fun result => pure (result.outcome exit.kind)) b =
      (.ok none, b') := by
    rcases hkind with hkind | hkind
    all_goals simpa only [serve, hkind] using h
  obtain ⟨r, b₁, hfeed, hr⟩ := bind_eq_ok_iff.mp hserve
  cases r with
  | fed =>
    cases hr
    exact hfeed
  | exhausted | noSource => cases hr

theorem serveIo_of_serve {target : VirtTime}
    (h : serve target exit turn b = (.ok none, b')) (hkind : ¬OnlyRunUntil exit.kind) :
    serveIo exit turn b = (.ok none, b') := by
  cases hk : exit.kind with
  | rdrand => exact serveIo_of_fed (.inl hk) (fed_of_serve (.inl hk) h)
  | rdseed => exact serveIo_of_fed (.inr hk) (fed_of_serve (.inr hk) h)
  | vmcallGetRandom => exact absurd (.inl hk) hkind
  | stopTscReached => exact absurd (.inr hk) hkind
  | feedbackBufferRegistered =>
    simp only [serve, hk] at h
    obtain ⟨_, b₁, hread, hend⟩ := bind_eq_ok_iff.mp h
    cases hend
    simp only [serveIo, hk]
    exact bind_ok hread
  | continue_ | eventBufferFull =>
    simp only [serve, hk] at h
    simp only [serveIo, hk]
    cases h
    rfl
  | ioResponse =>
    simp only [serve, hk] at h
    obtain ⟨bytes, b₁, -, hrest⟩ := bind_eq_ok_iff.mp h
    obtain ⟨output, b₂, -, hend⟩ := bind_eq_ok_iff.mp hrest
    cases hend
  | vmcallShutdown | vmcallSnapshot _ | vmcallReady | fileFetch | unhandledExit _ | fileStore =>
    simp only [serve, hk] at h
    cases h

theorem serveIo_of_onlyRunUntil (turn : Turn) (hkind : OnlyRunUntil exit.kind) :
    serveIo exit turn b = (.error (.unexpectedExit b.currentTime exit.kind), b) := by
  rcases hkind with hkind | hkind
  all_goals
    simp only [serveIo, hkind]
    rfl

theorem ioTurn_of_run (h : runVm turn b = (.ok exit, b₁)) : ioTurn turn b = serveIo exit turn b₁ :=
  bind_ok h

theorem drive_ioTurn_of_passesOver {b₂ b₃ : Branch S} {turns : List Turn}
    {exits : List VmExit} {last : Turn} {bytes : List UInt8}
    (hpass : PassesOver b turns exits b₁) (hknown : ∀ exit ∈ exits, ¬OnlyRunUntil exit.kind)
    (hrun : runVm last b₁ = (.ok exit, b₂)) (hkind : exit.kind = .ioResponse)
    (hdrain : drainIoResponse last b₂ = (.ok bytes, b₃)) :
    drive ioTurn (turns ++ [last]) b = (.ok (some bytes), b₃) := by
  induction hpass with
  | nil b =>
    apply drive_of_ended
    rw [ioTurn_of_run hrun]
    simp only [serveIo, hkind]
    exact bind_ok hdrain
  | cons hturn hserve hrest ih =>
    obtain ⟨hfirst, hlater⟩ := forall_mem_cons.mp hknown
    have hcontinue := (ioTurn_of_run hturn).trans (serveIo_of_serve hserve hfirst)
    exact (drive_of_continued hcontinue).trans (ih hlater hrun)

theorem drive_ioTurn_of_onlyRunUntil {turns : List Turn} (more : List Turn)
    {exits : List VmExit} (hpass : PassesOver b turns exits b₁)
    (hunknown : ∃ exit ∈ exits, OnlyRunUntil exit.kind) :
    ∃ t kind b', drive ioTurn (turns ++ more) b = (.error (.unexpectedExit t kind), b') := by
  induction hpass with
  | nil b =>
    obtain ⟨exit, hmem, -⟩ := hunknown
    cases hmem
  | @cons b b₁ b₂ b' turn turns exit exits target hturn hserve hrest ih =>
    by_cases hfirst : OnlyRunUntil exit.kind
    · have hstop := (ioTurn_of_run hturn).trans (serveIo_of_onlyRunUntil turn hfirst)
      exact ⟨_, _, _, drive_of_error hstop⟩
    have hcontinue := (ioTurn_of_run hturn).trans (serveIo_of_serve hserve hfirst)
    have hlater : ∃ exit ∈ exits, OnlyRunUntil exit.kind := by
      obtain ⟨e, hmem, he⟩ := hunknown
      rcases mem_cons.mp hmem with rfl | hmem
      · exact absurd he hfirst
      · exact ⟨e, hmem, he⟩
    obtain ⟨t, kind, b'', hend⟩ := ih hlater
    exact ⟨t, kind, b'', (drive_of_continued hcontinue).trans hend⟩

omit [InputSource S] in
theorem bashOutputFromResponse_ne_unexpectedExit (resp : List UInt8)
    (output : VmContext → Except IoError (List (List UInt8)) × VmContext) (b : Branch S)
    (t : VirtTime) (kind : ExitKind) :
    (bashOutputFromResponse resp output b).1 ≠ .error (.unexpectedExit t kind) := by
  cases hdecode : decodeResponse resp with
  | none => simp [bashOutputFromResponse, hdecode]
  | some r =>
    by_cases hlen : 0 < r.outputLen
    · rcases hmap : output b.vm with ⟨e | buffers, vm⟩
      · simp [bashOutputFromResponse, hdecode, hlen, bind_apply, callVm_error hmap]
      · simp [bashOutputFromResponse, hdecode, hlen, bind_apply, callVm_ok hmap]
    · simp [bashOutputFromResponse, hdecode, hlen]

/-- A bash command whose stop time and request are accepted, after exits that `run_until`
would pass over, returns the decoded response exactly if none of the exits is a
GET_RANDOM request or a stop time reached. -/
theorem bash_response_iff {b b₀ b₁ b₂ b₃ : Branch S} {target : BashTarget} {command : String}
    {recordOutput : Bool} {host : BashHost} {turns : List Turn} {exits : List VmExit}
    {last : Turn} {exit : VmExit} {bytes : List UInt8}
    (hqueue : (do
      setStopAt none host.stopCopied
      callVm .queueIoAction fun vm =>
        vm.queueIoAction (encodeRequest target command recordOutput) 0 host.queue : Act S Unit) b =
          (.ok (), b₀))
    (hpass : PassesOver b₀ turns exits b₁) (hrun : runVm last b₁ = (.ok exit, b₂))
    (hkind : exit.kind = .ioResponse) (hdrain : drainIoResponse last b₂ = (.ok bytes, b₃)) :
    (bash target command recordOutput host (turns ++ [last]) b).1 =
        (bashOutputFromResponse bytes host.output b₃).1.map some ↔
      ∀ exit ∈ exits, exit.kind ≠ .vmcallGetRandom ∧ exit.kind ≠ .stopTscReached := by
  have hloop : runIoAction (encodeRequest target command recordOutput) host (turns ++ [last]) b =
      Program.drive ioTurn (turns ++ [last]) b₀ := by
    obtain ⟨_, b', hstop, hqueued⟩ := Program.bind_eq_ok_iff.mp hqueue
    exact (Program.bind_ok hstop).trans (Program.bind_ok hqueued)
  constructor
  · intro hresponse exit hmem
    by_contra hunknown
    have honly : OnlyRunUntil exit.kind := by
      unfold OnlyRunUntil
      tauto
    obtain ⟨t, kind, b', hend⟩ := drive_ioTurn_of_onlyRunUntil [last] hpass
      ⟨exit, hmem, honly⟩
    have hbash : (bash target command recordOutput host (turns ++ [last]) b).1 =
        .error (.unexpectedExit t kind) :=
      congrArg Prod.fst (Program.bind_error (hloop.trans hend))
    rw [hbash] at hresponse
    have hne := bashOutputFromResponse_ne_unexpectedExit bytes host.output b₃ t kind
    cases hout : (bashOutputFromResponse bytes host.output b₃).1 with
    | error e =>
      rw [hout] at hresponse hne
      cases hresponse
      exact hne rfl
    | ok output =>
      rw [hout] at hresponse
      cases hresponse
  · intro hknown
    have hend := drive_ioTurn_of_passesOver hpass (fun exit hmem honly =>
      honly.elim (hknown exit hmem).1 (hknown exit hmem).2) hrun hkind hdrain
    have hbash : bash target command recordOutput host (turns ++ [last]) b =
        (do let output ← bashOutputFromResponse bytes host.output
            pure (some output) : Act S (Option BashOutput)) b₃ :=
      Program.bind_ok (hloop.trans hend)
    rw [hbash, Program.bind_apply]
    rcases bashOutputFromResponse bytes host.output b₃ with ⟨e | output, b'⟩
    · rfl
    · rfl

end Branch

/-! ## A source that is never exhausted -/

/-- A source that is never exhausted and has no I/O inputs. -/
inductive Zeros
  | source

instance : InputSource Zeros where
  nextIoInput s := (none, s)
  nextRngU64 s := (some 0, s)

def zerosBranch : Branch Zeros where
  vm := newVm
  currentTime := ⟨0, 1000⟩
  tscFrequency := 1000
  inputSource := some .source
  pendingInputIo := none
  inputIoExhausted := false
  origin := 0

def Turn.exits (reason : ExitReason) (tsc : Nat) : Turn where
  run vm := (.ok { exitReason := reason, emulatedTsc := tsc }, vm)

def responded (vm : VmContext) (len : Nat) : VmContext :=
  vm.setGuest { vm.state.guest with
    ioChannel := { vm.state.guest.ioChannel with
      responseLen := len
      responseBuf := fun i => ((leBytes 4 IO_RESPONSE_MAGIC)[i]?).getD 0 } }

def respondedBytes : List UInt8 :=
  (List.range 20).map fun i => ((leBytes 4 IO_RESPONSE_MAGIC)[i]?).getD 0

def Turn.responds (tsc : Nat) : Turn where
  run vm := (.ok { exitReason := .vmcallIoResponse, emulatedTsc := tsc }, responded vm 20)

namespace Branch

theorem runVm_exits {S : Type} (reason : ExitReason) (tsc : Nat) (b : Branch S) :
    runVm (.exits reason tsc) b =
      (.ok { exitReason := reason, emulatedTsc := tsc },
        { b with currentTime := ⟨tsc, b.tscFrequency⟩ }) := rfl

theorem runVm_responds {S : Type} (tsc : Nat) (b : Branch S) :
    runVm (.responds tsc) b =
      (.ok { exitReason := .vmcallIoResponse, emulatedTsc := tsc },
        { b with vm := responded b.vm 20, currentTime := ⟨tsc, b.tscFrequency⟩ }) := rfl

theorem drainIoResponse_responds {S : Type} (tsc : Nat) (b : Branch S) :
    drainIoResponse (.responds tsc)
        { b with vm := responded b.vm 20, currentTime := ⟨tsc, b.tscFrequency⟩ } =
      (.ok respondedBytes,
        { b with vm := responded b.vm 0, currentTime := ⟨tsc, b.tscFrequency⟩ }) := rfl

/-- A full event buffer and an RDRAND before the response. -/
theorem bash_response_rdrand :
    (bash .host "ls" false {}
        [.exits .eventBufferFull 5, .exits .rdrand 7, .responds 9] zerosBranch).1 =
      .ok (some ⟨0, 0, []⟩) := by
  let queue : Act Zeros Unit := do
    setStopAt none true
    callVm .queueIoAction fun vm => vm.queueIoAction (encodeRequest .host "ls" false) 0 {}
  have hqueue : queue zerosBranch = (.ok (), (queue zerosBranch).2) :=
    Prod.ext (by decide +kernel) rfl
  have hpass : ∃ b₁, PassesOver (queue zerosBranch).2 [.exits .eventBufferFull 5, .exits .rdrand 7]
      [⟨.eventBufferFull, 0, 0, 5⟩, ⟨.rdrand, 0, 0, 7⟩] b₁ :=
    ⟨_, .cons (runVm_exits _ _ _) (show serve ⟨10, 1000⟩ _ _ _ = _ from rfl)
      (.cons (runVm_exits _ _ _) (show serve ⟨10, 1000⟩ _ _ _ = _ from rfl) (.nil _))⟩
  obtain ⟨b₁, hpass⟩ := hpass
  have hdecode : decodeResponse respondedBytes = some ⟨0, 0, 0⟩ := by decide +kernel
  refine ((bash_response_iff hqueue hpass (runVm_responds 9 b₁) rfl
    (drainIoResponse_responds 9 b₁)).mpr (by decide)).trans ?_
  simp [bashOutputFromResponse, hdecode, exitCodeFromWaitStatus, Except.map]

/-- `run_until` serves a GET_RANDOM request; `bash` gives up on it. -/
theorem bash_rejects_getRandom :
    (∃ b, PassesOver zerosBranch [.exits .vmcallGetRandom 5]
      [{ exitReason := .vmcallGetRandom, emulatedTsc := 5 }] b) ∧
    (bash .host "ls" false {} [.exits .vmcallGetRandom 5, .responds 9] zerosBranch).1 =
      .error (.unexpectedExit ⟨5, 1000⟩ .vmcallGetRandom) :=
  ⟨⟨_, .cons (runVm_exits _ _ _) (show serve ⟨10, 1000⟩ _ _ _ = _ from rfl) (.nil _)⟩, rfl⟩

end Branch

end Lab

end Bedrock
