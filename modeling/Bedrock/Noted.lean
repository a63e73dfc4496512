import Bedrock.ExitRecords
import Bedrock.Printing

/-!
# What is noted in the stream

A reader of the event stream picks out records of one kind and takes something from each.
What it will find is noted in the stream: in the records of the buffer, and in the record
in the staging area, which the next RUN puts into the buffer.  An event is noted unless
the buffer and the staging area are both taken, and a note in the staging area lasts
unless a misplaced exit record is finalized over it.
-/

namespace Bedrock

open Support EventStream Built List Option EventKind

/-- What a reader takes from the records of one kind. -/
structure Reading (β : Type) where
  kind : EventKind
  keep : EventRecord → Option β
  only : ∀ r, r.kind ≠ kind.asU16 → keep r = none
  unnumbered : ∀ (e : Event) (seq : UInt64), keep (e.record seq) = keep (e.record 0)
  notExit : kind ≠ .exit

namespace Reading

variable {β : Type} (ρ : Reading β)

def event (e : Event) : Option β :=
  ρ.keep (e.record 0)

theorem event_of_kind {e : Event} (h : e.kind ≠ ρ.kind) : ρ.event e = none :=
  ρ.only _ fun heq => h (asU16_injective heq)

end Reading

namespace EventStream

variable {β : Type} (ρ : Reading β)

/-- What is in the staging area for the reader. -/
def stagedFor (es : EventStream) : List β :=
  (es.staged.bind ρ.event).toList

/-- What the reader will find: the records in the buffer and the staged one. -/
def noted (es : EventStream) : List β :=
  (EventRecord.stream es.buffer).filterMap ρ.keep ++ es.stagedFor ρ

/-- The buffer holds whole records, and where it would be finalized there is an exit
record. -/
structure Sound (es : EventStream) : Prop where
  records : ∃ rs, es.Holds rs
  target : ∀ base, es.pendingExitLoc = some (.buffer base) → es.attached = true →
    es.HoldsExit base

/-- From `es` to `es'` these notes were taken. -/
structure Notes (xs : List β) (es es' : EventStream) : Prop where
  accepts : es'.accepts = es.accepts
  sound : es.Sound → es'.Sound
  noted : es.accepts ρ.kind = true → es.Sound → es'.noted ρ = es.noted ρ ++ xs

/-- There is room for an event with a payload of this length: in the buffer, behind which
nothing is staged for the reader, or in the staging area. -/
def Saves (es : EventStream) (len : Nat) : Prop :=
  if es.fits len = true then es.stagedFor ρ = []
  else es.pending = none ∧ len ≤ IO_CHANNEL_BUF_SIZE

/-- Finalizing leaves what is staged alone: an exit record is staged, or nothing that
reaches to its deferred fields. -/
def SafePatch (es : EventStream) : Prop :=
  es.pendingExitLoc = some .pending → es.pending = none ∨ es.pending = some .exit ∨
    es.pendingLen ≤ MEMORY_HASH_OFFSET

instance (es : EventStream) (len : Nat) [DecidableEq β] : Decidable (es.Saves ρ len) :=
  inferInstanceAs (Decidable (if es.fits len = true then _ else _))

instance (es : EventStream) : Decidable es.SafePatch :=
  inferInstanceAs (Decidable (_ → _))

variable {ρ} {es es' : EventStream} {e : Event}

theorem noted_of_holds {rs : List EventRecord} (h : es.Holds rs) :
    es.noted ρ = rs.filterMap ρ.keep ++ es.stagedFor ρ := by
  rw [noted, h.stream]

theorem stagedFor_of_staged (h : es'.staged = es.staged) : es'.stagedFor ρ = es.stagedFor ρ := by
  rw [stagedFor, stagedFor, h]

namespace Notes

theorem refl (es : EventStream) : Notes ρ [] es es :=
  ⟨rfl, id, fun _ _ => (append_nil _).symm⟩

theorem append {a b c : EventStream} {xs ys : List β} (hab : Notes ρ xs a b)
    (hbc : Notes ρ ys b c) : Notes ρ (xs ++ ys) a c where
  accepts := hbc.accepts.trans hab.accepts
  sound h := hbc.sound (hab.sound h)
  noted hon h := by
    rw [hbc.noted (hab.accepts ▸ hon) (hab.sound h), hab.noted hon h, append_assoc]

theorem trans {a b c : EventStream} (hab : Notes ρ [] a b) (hbc : Notes ρ [] b c) :
    Notes ρ [] a c :=
  hab.append hbc

theorem append_nil {a b c : EventStream} {xs : List β} (hab : Notes ρ xs a b)
    (hbc : Notes ρ [] b c) : Notes ρ xs a c := by
  have h := hab.append hbc
  rwa [List.append_nil] at h

theorem of_records (haccepts : es'.accepts = es.accepts) (hsound : es.Sound → es'.Sound)
    (hstaged : es'.stagedFor ρ = es.stagedFor ρ)
    (hrecords : ∀ rs, es.Holds rs → ∃ rs', es'.Holds rs' ∧
      rs'.filterMap ρ.keep = rs.filterMap ρ.keep) : Notes ρ [] es es' where
  accepts := haccepts
  sound := hsound
  noted _ h := by
    obtain ⟨rs, hrs⟩ := h.records
    obtain ⟨rs', hrs', hsame⟩ := hrecords rs hrs
    rw [noted_of_holds hrs', noted_of_holds hrs, hsame, hstaged, List.append_nil]

theorem of_buffer (haccepts : es'.accepts = es.accepts) (hsound : es.Sound → es'.Sound)
    (hbuffer : es'.buffer = es.buffer) (hstaged : es'.staged = es.staged) : Notes ρ [] es es' :=
  of_records haccepts hsound (stagedFor_of_staged hstaged) fun rs hrs =>
    ⟨rs, hbuffer.trans hrs, rfl⟩

end Notes

/-! ## Events -/

theorem Sound.emit (h : es.Sound) (e : Event) : (es.emit e).Sound := by
  obtain ⟨rs, hrs⟩ := h.records
  obtain ⟨more, hmore, -⟩ := hrs.emit e
  refine ⟨⟨_, hmore⟩, fun base hloc hattached => ?_⟩
  rw [emit_pendingExitLoc] at hloc
  rw [emit_attached] at hattached
  exact (h.target base hloc hattached).emit e

theorem emit_unnoted (es : EventStream) (hevent : ρ.event e = none)
    (htrim : es.fits e.payload.length = false → ρ.event e.trim = none) : Notes ρ [] es (es.emit e) := by
  refine .of_records (accepts_emit es e) (fun h => h.emit e) ?_ fun rs hrs => ?_
  · rcases es.staged_emit e with hsame | ⟨-, hfull, hfree, hstaged⟩
    · exact stagedFor_of_staged hsame
    · rw [stagedFor, stagedFor, hfree, hstaged, bind_some, htrim hfull]
      rfl
  · rcases es.emit_cases e with hsame | ⟨haccepts, hfits⟩ | ⟨haccepts, hfull, hfree⟩
    · exact ⟨rs, by rwa [hsame], rfl⟩
    · have hkeep : ρ.keep (e.record es.seq) = none := (ρ.unnumbered e es.seq).trans hevent
      refine ⟨_, hrs.emit_of_fits haccepts hfits, ?_⟩
      rw [filterMap_append, filterMap_cons_none hkeep, filterMap_nil, append_nil]
    · exact ⟨rs, (emit_of_full haccepts hfull hfree).1.trans hrs, rfl⟩

theorem emit_of_kind (es : EventStream) (hkind : e.kind ≠ ρ.kind) : Notes ρ [] es (es.emit e) :=
  es.emit_unnoted (ρ.event_of_kind hkind) fun _ => ρ.event_of_kind hkind

theorem emit_noted (hsaves : es.Saves ρ e.payload.length) :
    Notes ρ (ρ.event e).toList es (es.emit e) := by
  unfold Saves at hsaves
  cases hevent : ρ.event e with
  | none =>
    refine es.emit_unnoted hevent fun hfits => ?_
    rw [if_neg (by simp [hfits])] at hsaves
    rwa [e.trim_eq_self_iff.mpr hsaves.2]
  | some x =>
    have hkind : e.kind = ρ.kind := by
      by_contra hne
      rw [ρ.event_of_kind hne] at hevent
      cases hevent
    refine ⟨accepts_emit es e, fun h => h.emit e, fun hon h => ?_⟩
    rw [← hkind] at hon
    obtain ⟨rs, hrs⟩ := h.records
    cases hfits : es.fits e.payload.length with
    | true =>
      rw [if_pos hfits] at hsaves
      have hkeep : ρ.keep (e.record es.seq) = some x := (ρ.unnumbered e es.seq).trans hevent
      have hstaged : (es.emit e).stagedFor ρ = es.stagedFor ρ :=
        stagedFor_of_staged (emit_of_fits hon hfits).2.2.1
      rw [noted_of_holds (hrs.emit_of_fits hon hfits), noted_of_holds hrs, hstaged, hsaves,
        filterMap_append, filterMap_cons_some hkeep, filterMap_nil,
        append_nil, append_nil]
      rfl
    | false =>
      rw [if_neg (by simp [hfits])] at hsaves
      obtain ⟨hfree, hlen⟩ := hsaves
      obtain ⟨hbuffer, -, hstaged, -⟩ := emit_of_full hon hfits hfree
      rw [e.trim_eq_self_iff.mpr hlen] at hstaged
      have hbefore : es.stagedFor ρ = [] := by
        rw [stagedFor, (staged_eq_none_iff es).mpr hfree]
        rfl
      have hafter : (es.emit e).stagedFor ρ = [x] := by
        rw [stagedFor, hstaged, bind_some, hevent]
        rfl
      rw [noted_of_holds (hbuffer.trans hrs), noted_of_holds hrs, hbefore, hafter, append_nil]
      rfl

theorem Notes.of_disabled (h : es.enabled ρ.kind = false) (xs : List β) : Notes ρ xs es es where
  accepts := rfl
  sound := id
  noted hon _ := by
    unfold EventStream.accepts at hon
    rw [h, Bool.and_false] at hon
    cases hon

theorem Notes.lineFrame (hkind : ρ.kind ≠ .serial) : LineFrame (Notes ρ []) where
  refl := .refl
  trans := .trans
  line _ _ _ _ := .of_buffer rfl (fun h => ⟨h.records, h.target⟩) rfl rfl
  carry es _ he := es.emit_of_kind (he ▸ hkind.symm)

/-! ## Exit records -/

theorem emitExit_unnoted (es : EventStream) (deterministic : Bool) (tsc realTsc : UInt64)
    {payload : List UInt8} (hlen : payload.length = EXIT_RECORD_SIZE) :
    Notes ρ [] es (es.emitExit deterministic tsc realTsc payload) := by
  cases haccepts : es.accepts .exit with
  | false =>
    rw [emitExit_of_not_accepts haccepts]
    exact .of_buffer rfl (fun h => ⟨h.records, nofun⟩) rfl rfl
  | true =>
    let e := captureEvent deterministic tsc realTsc payload
    have hemit : Notes ρ [] es (es.emit e) := es.emit_of_kind ρ.notExit.symm
    have hsound : es.Sound → (es.emitExit deterministic tsc realTsc payload).Sound := by
      intro h
      obtain ⟨rs, hrs⟩ := h.records
      obtain ⟨more, hmore, -⟩ := hrs.emit e
      rw [emitExit_of_accepts haccepts]
      refine ⟨⟨_, hmore⟩, fun base hloc _ => ?_⟩
      cases hfits : es.fits payload.length with
      | false =>
        rw [hfits] at hloc
        cases hloc
      | true =>
        have hlength := congrArg List.length hrs
        rw [buffer_length] at hlength
        rw [hfits] at hloc
        cases hloc
        rw [hlength]
        exact ⟨rs, e.record es.seq, [], hrs.emit_of_fits haccepts hfits, rfl, hlen, rfl⟩
    refine ⟨?_, hsound, fun hon h => ?_⟩
    · rw [emitExit_of_accepts haccepts]
      exact hemit.accepts
    · rw [emitExit_of_accepts haccepts]
      exact hemit.noted hon h

theorem window_patchExit_of_le {bytes : Nat → UInt8} {len : Nat} (h : len ≤ MEMORY_HASH_OFFSET)
    (memoryHash : UInt64) (cowPageCount : UInt32) :
    window (patchExit bytes 0 memoryHash cowPageCount) 0 len = window bytes 0 len := by
  have hbefore : MEMORY_HASH_OFFSET ≤ COW_PAGE_COUNT_OFFSET := by decide
  unfold patchExit
  rw [window_splice_of_le _ _ (by omega), window_splice_of_le _ _ (by omega)]

theorem finalizeExit_unnoted (hsafe : es.SafePatch) (memoryHash : UInt64) (cowPageCount : UInt32) :
    Notes ρ [] es (es.finalizeExit memoryHash cowPageCount) := by
  rcases es.finalizeExit_cases memoryHash cowPageCount with
    ⟨-, heq⟩ | ⟨base, -, -, heq⟩ | ⟨base, hloc, hattached, heq⟩ | ⟨hloc, heq⟩
  · rw [heq]
    exact .refl es
  · rw [heq]
    exact .of_buffer rfl (fun h => ⟨h.records, fun _ hloc => by cases hloc⟩) rfl rfl
  · have haccepts : (es.finalizeExit memoryHash cowPageCount).accepts = es.accepts := by
      rw [heq]
      rfl
    have hstaged : (es.finalizeExit memoryHash cowPageCount).staged = es.staged := by
      rw [heq]
      rfl
    have hpatched := fun h : es.Sound =>
      (h.target base hloc hattached).finalizeExit hloc hattached memoryHash cowPageCount
    refine ⟨haccepts, fun h => ?_, fun _ h => ?_⟩
    · obtain ⟨before, after, r, r', -, hholds, -⟩ := hpatched h
      refine ⟨⟨_, hholds⟩, fun base hloc => ?_⟩
      rw [finalizeExit_pendingExitLoc] at hloc
      cases hloc
    obtain ⟨before, after, r, r', hrecords, hholds, hr, hr'⟩ := hpatched h
    have hexit : ∀ x : EventRecord, x.kind = exit.asU16 → ρ.keep x = none := by
      intro x hx
      apply ρ.only
      rw [hx]
      exact fun heq => ρ.notExit.symm (asU16_injective heq)
    rw [noted_of_holds hholds, noted_of_holds hrecords, stagedFor_of_staged hstaged,
      filterMap_append, filterMap_append, filterMap_cons_none (hexit r hr),
      filterMap_cons_none (hexit r' hr'), append_nil]
  · have hkept : ({ es with
        pendingExitLoc := none
        pendingBytes := patchExit es.pendingBytes 0 memoryHash cowPageCount } :
          EventStream).stagedFor ρ = es.stagedFor ρ := by
      rcases hsafe hloc with hfree | hexit | hshort
      · simp only [stagedFor, staged, hfree, map_none]
      · have hnone : ∀ flags tsc realTsc payload,
            ρ.event ⟨.exit, flags, tsc, realTsc, payload⟩ = none :=
          fun _ _ _ _ => ρ.event_of_kind ρ.notExit.symm
        simp only [stagedFor, staged, hexit, map_some, bind_some, hnone]
      · simp only [stagedFor, staged, pendingBuf, window_patchExit_of_le hshort]
    rw [heq]
    exact .of_records rfl (fun h => ⟨h.records, fun _ hloc => by cases hloc⟩) hkept fun rs hrs => ⟨rs, hrs, rfl⟩

theorem emptied_emit_noted (hstaged : es.staged = some e) :
    Notes ρ (es.stagedFor ρ) es.emptied (es.emptied.emit e) := by
  rw [stagedFor, hstaged, bind_some]
  apply emit_noted
  unfold Saves
  rw [if_pos (emptied_fits_of_staged hstaged)]
  rfl

theorem emptied_emit_pending (hstaged : es.staged = some e) : (es.emptied.emit e).pending = none := by
  have hfits := emptied_fits_of_staged hstaged
  cases haccepts : es.emptied.accepts e.kind with
  | false =>
    rw [emit_of_not_accepts haccepts]
    rfl
  | true =>
    rw [← staged_eq_none_iff, (emit_of_fits haccepts hfits).2.2.1]
    rfl

theorem clear_noted (hon : es.accepts ρ.kind) (hloc : es.pendingExitLoc = none) :
    es.clear.Sound ∧ es.clear.noted ρ = es.stagedFor ρ := by
  have hempty : es.emptied.Holds [] := rfl
  have hemptied : es.emptied.Sound := by
    refine ⟨⟨[], hempty⟩, fun base h => ?_⟩
    have hnone : es.emptied.pendingExitLoc = none := hloc
    rw [hnone] at h
    cases h
  have hnone : es.emptied.noted ρ = [] := noted_of_holds hempty
  cases hstaged : es.staged with
  | none =>
    rw [es.clear_eq.1 hstaged, hnone, stagedFor, hstaged]
    exact ⟨hemptied, rfl⟩
  | some e =>
    have hrelocated : es.relocated e = none := by
      unfold relocated
      rw [if_neg (by rw [hloc]; exact fun h => nomatch h.2), hloc]
    have hemit := emptied_emit_noted (ρ := ρ) hstaged
    have hnoted := hemit.noted hon hemptied
    rw [hnone, nil_append] at hnoted
    have hpending := emptied_emit_pending hstaged
    rw [es.clear_eq.2 e hstaged, hrelocated]
    refine ⟨⟨(hemit.sound hemptied).records, nofun⟩, Eq.trans ?_ hnoted⟩
    simp only [noted, stagedFor, staged, hpending, map_none, bind_none]
    rfl

end EventStream

/-! ## Handlers that leave no note -/

variable {β : Type}

/-- From `before` to `after` no note was taken. -/
def Overlooks (ρ : Reading β) (before after : VmContext) : Prop :=
  Notes ρ [] before.state.events after.state.events

variable {ρ : Reading β} (ctx : VmContext)

namespace Overlooks

theorem refl : Overlooks ρ ctx ctx :=
  Notes.refl _

theorem trans {a b c : VmContext} (hab : Overlooks ρ a b) (hbc : Overlooks ρ b c) :
    Overlooks ρ a c :=
  Notes.trans hab hbc

theorem of_events {before after : VmContext} (h : after.state.events = before.state.events) :
    Overlooks ρ before after := by
  unfold Overlooks
  rw [h]
  exact .refl _

end Overlooks

namespace VmContext

theorem emitEvent_stream (kind : EventKind) (flags : UInt16)
    (payload : List UInt8) : (ctx.emitEvent kind flags payload).state.events =
      if ctx.state.events.enabled kind then
        ctx.state.events.emit ⟨kind, flags, ctx.stamp, ctx.rdtsc.1, payload⟩
      else ctx.state.events := by
  rw [emitEvent]
  cases hon : ctx.state.events.enabled kind with
  | false | true => rfl

theorem emitEvent_unnoted {kind : EventKind} {flags : UInt16} {payload : List UInt8}
    (hevent : ∀ realTsc, ρ.event ⟨kind, flags, ctx.stamp, realTsc, payload⟩ = none ∧
      ρ.event (Event.trim ⟨kind, flags, ctx.stamp, realTsc, payload⟩) = none) :
    Overlooks ρ ctx (ctx.emitEvent kind flags payload) := by
  unfold Overlooks
  rw [emitEvent_stream]
  split
  · obtain ⟨hnone, htrim⟩ := hevent ctx.rdtsc.1
    exact emit_unnoted _ hnone fun _ => htrim
  · exact .refl _

theorem emitEvent_notes {kind : EventKind} {flags : UInt16}
    {payload : List UInt8} {x : Option β} (hkind : kind = ρ.kind)
    (hevent : ∀ realTsc, ρ.event ⟨kind, flags, ctx.stamp, realTsc, payload⟩ = x)
    (hsaves : ctx.state.events.Saves ρ payload.length) :
    Notes ρ x.toList ctx.state.events (ctx.emitEvent kind flags payload).state.events := by
  rw [emitEvent_stream]
  split
  · rw [← hevent ctx.rdtsc.1]
    exact emit_noted hsaves
  rename_i hoff
  refine .of_disabled ?_ _
  rw [← hkind]
  simpa using hoff

theorem writeExitRecord_overlooks (reason : ExitReason) (qual : UInt64)
    (flags : UInt32) : Overlooks ρ ctx (ctx.writeExitRecord reason qual flags) := by
  rw [writeExitRecord]
  split
  · exact .refl ctx
  · exact emitExit_unnoted _ _ _ _ (ctx.exitRecord_length reason qual flags)

theorem updateMtfState_overlooks : Overlooks ρ ctx ctx.updateMtfState.2 := by
  obtain ⟨_, _, h⟩ := ctx.updateMtfState_eq
  rw [h]
  exact .refl ctx

theorem finalizeExitRecord_overlooks {ctx : VmContext} (hsafe : ctx.state.events.SafePatch) :
    Overlooks ρ ctx ctx.finalizeExitRecord := by
  rw [finalizeExitRecord]
  split
  · exact .refl ctx
  · exact finalizeExit_unnoted hsafe _ _

end VmContext

theorem Overlooks.captureFrame : CaptureFrame (Overlooks ρ) where
  refl := .refl
  trans := .trans
  record := VmContext.writeExitRecord_overlooks
  bookkeeping _ _ := .of_events rfl

theorem Emission.run_overlooks {e : Emission} (h : e.kind ≠ ρ.kind) (ctx : VmContext) :
    Overlooks ρ ctx (e.run ctx) := by
  have hskip : ∀ {kind : EventKind} {flags : UInt16} {payload : List UInt8}, kind ≠ ρ.kind →
      Overlooks ρ ctx (ctx.emitEvent kind flags payload) :=
    fun hkind => ctx.emitEvent_unnoted fun _ => ⟨ρ.event_of_kind hkind, ρ.event_of_kind hkind⟩
  cases e with
  | append kind payload _ => exact hskip h
  | serialByte byte =>
    rw [run, VmContext.eventSerialByte]
    split
    · exact .refl ctx
    · split
      all_goals exact (Notes.lineFrame h.symm).serialByte _ _ _ _
  | flushSerialLine => exact (Notes.lineFrame h.symm).flushSerialLine _
  | ioChannel phase targetTsc =>
    cases phase with
    | request => exact hskip h
    | response => exact hskip h

instance (A : ActionClass) : Covers (Keeping (Overlooks ρ)) A :=
  ⟨fun _ h ctx => .of_events (h ctx)⟩

instance {kind : EventKind} [h : Fact (kind ≠ ρ.kind)] : Emits (Keeping (Overlooks ρ)) kind :=
  ⟨fun _ he => Emission.run_overlooks (he ▸ h.out)⟩

instance : Captures (Keeping (Overlooks ρ)) :=
  ⟨fun c ctx => Overlooks.captureFrame.run ctx c⟩

instance : Consumes (Keeping (Overlooks ρ)) :=
  ⟨fun _ => .of_events rfl⟩

instance (priority := low) {ε α : Type} {m : Program ε VmContext α}
    [h : Built (Framed .nothing (Keeping (Overlooks ρ))) m] :
    Obeys (Overlooks ρ) m :=
  h.mono fun _ hf => hf.1

theorem Overlooks.of_built {ε α : Type} {m : Program ε VmContext α}
    (h : Obeys (Overlooks ρ) m) (ctx : VmContext) : Overlooks ρ ctx (m ctx).2 :=
  h.keeping refl trans ctx

instance : Obeys (Overlooks ρ) handleIdle := by
  refine .bind (.act fun ctx => ?_) inferInstance
  obtain ⟨clock, hwake⟩ := ctx.advanceToWake_setClock
  rw [hwake]
  exact .of_events rfl

namespace VmContext

theorem startRun_overlooks : Overlooks ρ ctx ctx.startRun.2 :=
  .trans (.of_events rfl) ctx.applyInterceptPf.updateMtfState_overlooks

theorem resume_overlooks (how : Resume) :
    Notes ρ [] (ctx.resumedEvents how) (ctx.resume how).2.state.events := by
  cases how with
  | loop => exact .refl _
  | refilled => exact ctx.startRun_overlooks
  | ioctl => exact (ctx.setEvents ctx.state.events.clear).startRun_overlooks

/-- Where the record of an exit would be finalized when its handler has returned. -/
def FinalizesSafely (ctx : VmContext) : Prop :=
  (∀ e, ctx.handleExit.1 ≠ .error e) → ctx.handleExit.2.state.events.SafePatch

theorem leave_overlooks {ctx : VmContext} (hsafe : ctx.FinalizesSafely) :
    Overlooks ρ ctx.handleExit.2 ctx.leave.2 := by
  unfold FinalizesSafely at hsafe
  unfold leave
  generalize ctx.handleExit = handled at hsafe ⊢
  obtain ⟨result, ctx'⟩ := handled
  cases result with
  | error e => exact .refl ctx'
  | continue_ | exitToUserspace reason => exact finalizeExitRecord_overlooks (hsafe nofun)

theorem leave_notes {ctx : VmContext} {reason : ExitReason} {qual : UInt64} {xs : List β}
    (hsafe : ctx.FinalizesSafely) (hinfo : ctx.exitInfo = .ok (reason, qual))
    (hhandled : ∀ begun, begun = ctx.beginExit (!ctx.state.nonDeterministicExit reason qual) →
      Notes ρ xs begun.state.events (dispatch reason qual begun).2.state.events) :
    Notes ρ xs ctx.state.events ctx.leave.2.state.events := by
  have hafter : Overlooks ρ _ ctx.handleExit.2 :=
    Overlooks.captureFrame.handleExit_of_dispatch updateMtfState_overlooks hinfo
  exact ((hhandled _ rfl).append_nil hafter).append_nil (leave_overlooks hsafe)

theorem leave_overlooks_of_error {ctx : VmContext} {e : ExitError} (hsafe : ctx.FinalizesSafely)
    (hinfo : ctx.exitInfo = .error e) : Overlooks ρ ctx ctx.leave.2 := by
  have hleave := leave_overlooks (ρ := ρ) hsafe
  rwa [handleExit_of_error hinfo] at hleave

end VmContext

end Bedrock
