/-
# `S3Wire.Client.MultipartUpload.Cleanup` — complete or abort, and never both

What a managed upload leaves behind on the service.  An upload that was created
is completed or aborted, once and not both, whichever way the run went wrong: a
part that failed, a deadline, a cancellation, a completion that was refused.  The
result the caller sees is the original failure, with whatever went wrong while
cleaning up attached to it, so that an error without such an attachment says
that the parts had settled and the abort was answered.

Everything here is read off `inv_run`: the order of events off `Lawful`, the
result off `FinishedInv`.
-/
import S3Wire.Client.MultipartUpload.Parts

namespace S3Wire

/-! ## Operations in a history -/

def Event.isCreateIssued : Event → Bool
  | .createIssued _ => true
  | _ => false

def Event.isCompleteIssued : Event → Bool
  | .completeIssued _ => true
  | _ => false

def Event.isAbortIssued : Event → Bool
  | .abortIssued _ => true
  | _ => false

/-- Events of an operation on an upload that exists. -/
def Event.isDownstream : Event → Bool
  | .completeIssued _ | .completeSent | .completeReturned _ => true
  | .abortIssued _ | .abortReturned _ => true
  | e => e.isPart

section Histories

variable {q : ManagedMultipartUploadRequest} {h later past : List Event}

theorem count_createIssued_le_one (hj : Lib.Justified (Lawful q) h) :
    h.countP Event.isCreateIssued ≤ 1 := by
  refine Lib.Justified.countP_le_one (fun {e past} hl he x hx => ?_) hj
  cases e with
  | createIssued r =>
      rcases hl x hx with rfl | ⟨s, rfl⟩
      · rfl
      · rfl
  | _ => cases he

/-- The completion is issued right behind the end of the part phase, and there
is one such end: the part phase was open before it. -/
theorem count_completeIssued_le_one (hj : Lib.Justified (Lawful q) h) :
    h.countP Event.isCompleteIssued ≤ 1 := by
  induction h with
  | nil => simp
  | cons e past ih =>
      cases e with
      | completeIssued r =>
          obtain ⟨upload, rest, rfl, -, -⟩ := hj.1
          have hopen : Open rest := hj.2.1.1
          have hzero : rest.countP Event.isCompleteIssued = 0 := by
            refine List.countP_eq_zero.mpr fun x hx hp => ?_
            cases x with
            | completeIssued r => exact Bool.false_ne_true (hopen.2 _ hx)
            | _ => cases hp
          rw [List.countP_cons_of_pos (by rfl),
            List.countP_cons_of_neg (by simp [Event.isCompleteIssued]),
            hzero]
      | _ =>
          rw [List.countP_cons_of_neg (by simp [Event.isCompleteIssued])]
          exact ih hj.2

theorem count_abortIssued_le_one (hj : Lib.Justified (Lawful q) h) :
    h.countP Event.isAbortIssued ≤ 1 := by
  refine Lib.Justified.countP_le_one (fun {e past} hl he x hx => ?_) hj
  cases e with
  | abortIssued a =>
      cases x with
      | abortIssued a' => exact absurd hx (hl.2.2.1 a')
      | _ => rfl
  | _ => cases he

theorem created_of_completeIssued {r : CompleteMultipartUploadRequest}
    (hj : Lib.Justified (Lawful q) h) (hr : .completeIssued r ∈ h) :
    .createReturned (.ok r.uploadId) ∈ h := by
  obtain ⟨past, hsuffix, upload, rest, rfl, -, hcreated⟩ := hj.of_mem hr
  exact hsuffix.subset (List.mem_cons_of_mem _ hcreated)

theorem created_of_abortIssued {a : AbortMultipartUploadRequest}
    (hj : Lib.Justified (Lawful q) h) (ha : .abortIssued a ∈ h) :
    .createReturned (.ok a.uploadId) ∈ h := by
  obtain ⟨past, hsuffix, hl⟩ := hj.of_mem ha
  exact hsuffix.subset hl.2.1

theorem created_of_downstream {e : Event} (hj : Lib.Justified (Lawful q) h)
    (he : e ∈ h) (hd : e.isDownstream = true) :
    ∃ id, .createReturned (.ok id) ∈ h := by
  obtain ⟨past, hsuffix, hl⟩ := hj.of_mem he
  cases e with
  | completeIssued r => exact ⟨_, created_of_completeIssued hj he⟩
  | completeSent =>
      obtain ⟨⟨r, hr⟩, -⟩ := hl
      exact ⟨_, created_of_completeIssued hj (hsuffix.subset hr)⟩
  | completeReturned result =>
      obtain ⟨⟨r, hr⟩, -⟩ := hl
      exact ⟨_, created_of_completeIssued hj (hsuffix.subset hr)⟩
  | abortIssued a => exact ⟨_, created_of_abortIssued hj he⟩
  | abortReturned result =>
      obtain ⟨a, ha⟩ := hl
      exact ⟨_, created_of_abortIssued hj (hsuffix.subset ha)⟩
  | partPushed i | partBegun i | partSent r | partResolved i reply =>
      obtain ⟨id, hid⟩ := (hl.open_of_part rfl).1
      exact ⟨id, hsuffix.subset hid⟩
  | _ => cases hd

/-- One creation, so one upload id. -/
theorem created_unique {id id' : UploadId} (hj : Lib.Justified (Lawful q) h)
    (hid : .createReturned (.ok id) ∈ h)
    (hid' : .createReturned (.ok id') ∈ h) : id = id' := by
  have heq := Lib.Justified.eq_of_mem (p := fun e => ∃ r, e = .createReturned r)
    (fun hl he x hx hp => by
      obtain ⟨r, rfl⟩ := he
      obtain ⟨r', rfl⟩ := hp
      rcases hl.2 _ hx with h | ⟨s, h⟩ | ⟨r, h⟩ <;>
        cases h) hj hid hid' ⟨_, rfl⟩ ⟨_, rfl⟩
  cases heq
  rfl

/-- Nothing happens to any part once the abort is issued. -/
theorem no_part_after_abort {a : AbortMultipartUploadRequest}
    (hj : Lib.Justified (Lawful q) (later ++ .abortIssued a :: past)) :
    ∀ x ∈ later, x.isPart = false := by
  intro x hx
  rw [Bool.eq_false_iff]
  refine Lib.Justified.not_after (p := fun e => e = .abortIssued a)
    (q := fun e => e.isPart = true) (fun hl he y hy hp => ?_) hj rfl x hx
  subst hp
  exact Bool.false_ne_true ((hl.open_of_part he).2 _ hy)

theorem abortReturned_later {a : AbortMultipartUploadRequest}
    {answer : Except S3Error RequestIds}
    (hj : Lib.Justified (Lawful q) (later ++ .abortIssued a :: past))
    (hr : .abortReturned answer ∈ later ++ .abortIssued a :: past) :
    .abortReturned answer ∈ later := by
  rcases List.mem_append.mp hr with hr | hr
  · exact hr
  · rcases List.mem_cons.mp hr with hr | hr
    · cases hr
    · -- an answer in the past of the abort would need an earlier abort
      obtain ⟨past', hsuffix, a', ha'⟩ := Lib.Justified.of_mem hj.past.2 hr
      exact absurd (hsuffix.subset ha') (hj.at_split.2.2.1 a')

end Histories

/-! ## The result of a failed run -/

theorem attachCleanupFailure_category (primary : S3Error)
    (cleanup : Except S3Error Unit) :
    (attachCleanupFailure primary cleanup).category = primary.category := by
  cases cleanup <;> rfl

theorem attachCleanupFailure_message (primary : S3Error)
    (cleanup : Except S3Error Unit) :
    (attachCleanupFailure primary cleanup).message = primary.message := by
  cases cleanup <;> rfl

/-- An error without a cleanup failure: the parts settled and the abort was
answered. -/
theorem ManagedUploadFailure.clean {failure : ManagedUploadFailure}
    {answer : Except S3Error RequestIds}
    (h : (failure.result answer).cleanupFailure = none) :
    failure.quiesceFailure = none ∧ ∃ ids, answer = .ok ids := by
  obtain ⟨primary, quiesce⟩ := failure
  cases answer with
  | error e =>
      cases quiesce with
      | none => cases h
      | some quiesce => cases h
  | ok ids =>
      cases quiesce with
      | none => exact ⟨rfl, ids, rfl⟩
      | some quiesce => cases h

/-! ## The discipline of a whole run -/

section Result

variable {q : ManagedMultipartUploadRequest} {sha : Sha256} {w : Worker}
  {labels : List Label}

/-- The upload was completed, and that is the result. -/
def Completed (h : List Event)
    (result : Except S3Error CompleteMultipartUploadOutput) : Prop :=
  ∃ output, .completeReturned (.ok output) ∈ h ∧ result = .ok output ∧
    h.countP Event.isAbortIssued = 0

/-- The upload was aborted once, and the result is the original failure. -/
def Aborted (id : UploadId) (h : List Event)
    (result : Except S3Error CompleteMultipartUploadOutput) : Prop :=
  h.countP Event.isAbortIssued = 1 ∧
    (∀ a, .abortIssued a ∈ h → a.uploadId = id) ∧
    ∃ e original, result = .error e ∧ originalFailure h = some original ∧
      e.category = original.category ∧ e.message = original.message

theorem not_completed_and_aborted {id : UploadId} {h : List Event}
    {result : Except S3Error CompleteMultipartUploadOutput} :
    ¬ (Completed h result ∧ Aborted id h result) := by
  rintro ⟨⟨output, -, hok, -⟩, -, -, e, original, herror, -⟩
  rw [hok] at herror
  cases herror

/-- What a completion that is issued has behind it: every part of the source,
recorded from the response to its number. -/
theorem completeIssued_after_parts {h later past : List Event}
    {r : CompleteMultipartUploadRequest} (hj : Lib.Justified (Lawful q) h)
    (hsplit : h = later ++ .completeIssued r :: past) :
    ∃ source n, .prepared source ∈ past ∧
    source.partCount q.options.partSize = .ok n ∧
      r.completedParts.map CompletedPart.number = (List.range n).map (· + 1) ∧
      ∀ p ∈ r.completedParts, ∃ reply,
        .partResolved p.number reply ∈ past ∧
        partResult p.number reply = .ok p := by
  subst hsplit
  obtain ⟨upload, rest, rfl, hparts, -⟩ := hj.at_split
  obtain ⟨-, -, source, n, hsource, hcount, hnumbers, -, honly⟩ := hj.past.2.1
  rw [hparts]
  refine ⟨source, n, List.mem_cons_of_mem _ hsource, hcount, hnumbers,
    fun p hp => ?_⟩
  obtain ⟨reply, hreply, hres⟩ := honly p hp
  exact ⟨reply, List.mem_cons_of_mem _ hreply, hres⟩

theorem FinishedInv.completed_or_aborted {h : List Event} {id : UploadId}
    {result : Except S3Error CompleteMultipartUploadOutput}
    (hj : Lib.Justified (Lawful q) h) (hid : .createReturned (.ok id) ∈ h)
    (hf : FinishedInv result h) :
    Completed h result ∨ Aborted id h result := by
  cases hf with
  | early e hresult hnone hearly => exact absurd hid (hnone id)
  | completed id' output hresult hcreated hreturned hnoAbort =>
      refine Or.inl
        ⟨output, hreturned, hresult, List.countP_eq_zero.mpr fun x hx hp => ?_⟩
      cases x with
      | abortIssued a => exact hnoAbort a hx
      | _ => cases hp
  | aborted id' failure answer hresult hinv hanswer =>
      obtain ⟨a, ha, -⟩ := hinv.issued
      refine Or.inr
        ⟨countP_eq_one (count_abortIssued_le_one hj) ha rfl, fun a' ha' => ?_,
          _, _,
        hresult, hinv.original, ?_, ?_⟩
      · exact created_unique hj (created_of_abortIssued hj ha') hid
      · exact attachCleanupFailure_category _ _
      · exact attachCleanupFailure_message _ _

/-- A clean error: the parts had settled when the abort was issued, and the
abort was answered. -/
theorem FinishedInv.clean {h : List Event} {id : UploadId} {e : S3Error}
    (hj : Lib.Justified (Lawful q) h) (hid : .createReturned (.ok id) ∈ h)
    (hf : FinishedInv (.error e) h) (hclean : e.cleanupFailure = none) :
    ∃ later a past ids, h = later ++ .abortIssued a :: past ∧ Settled past ∧
      .abortReturned (.ok ids) ∈ later := by
  cases hf with
  | early e' hresult hnone hearly => exact absurd hid (hnone id)
  | completed id' output hresult hcreated hreturned hnoAbort => cases hresult
  | aborted id' failure answer hresult hinv hanswer =>
      cases hresult
      obtain ⟨hquiesced, ids, rfl⟩ := ManagedUploadFailure.clean hclean
      obtain ⟨a, ha, -⟩ := hinv.issued
      obtain ⟨later, past, rfl⟩ := List.append_of_mem ha
      refine ⟨later, a, past, ids, rfl, ?_, abortReturned_later hj hanswer⟩
      have hnoTimeout := hinv.quiesced hquiesced
      refine hj.at_split.2.2.2.2.resolve_right fun ht => hnoTimeout ?_
      simp [ht]

/-- **An upload that was created is completed or aborted, once and not both.**
In every state of every run: the creation, the completion and the abort are
issued at most once each, and nothing of a part, the completion or the abort
without a creation that succeeded; the completion comes after all parts of the
source were recorded, and nothing of a part comes after the abort.  When the run
ends, an upload that was created was either completed, which is the result, or
aborted, and then the result is the original failure; and if that carries no
cleanup failure, then every part had resolved before the abort, and the abort
was answered. -/
theorem multipartUpload_completes_or_aborts
    (hrun : Lib.exec (Worker.step sha) (Worker.init q) labels = some w) :
    w.history.countP Event.isCreateIssued ≤ 1 ∧
    ((∀ id, .createReturned (.ok id) ∉ w.history) →
      ∀ e ∈ w.history, e.isDownstream = false) ∧
    (∀ id result, .createReturned (.ok id) ∈ w.history →
      w.phase = .finished result →
      Xor (Completed w.history result) (Aborted id w.history result)) ∧
    w.history.countP Event.isCompleteIssued ≤ 1 ∧
    (∀ later past r, w.history = later ++ .completeIssued r :: past →
      ∃ source n, .prepared source ∈ past ∧
      source.partCount q.options.partSize = .ok n ∧
        r.completedParts.map CompletedPart.number = (List.range n).map (· + 1) ∧
        ∀ p ∈ r.completedParts, ∃ reply,
          .partResolved p.number reply ∈ past ∧
          partResult p.number reply = .ok p) ∧
    (∀ later past a, w.history = later ++ .abortIssued a :: past →
      ∀ e ∈ later, e.isPart = false) ∧
    (∀ id e, .createReturned (.ok id) ∈ w.history →
      w.phase = .finished (.error e) →
      e.cleanupFailure = none →
      ∃ later a past ids, w.history = later ++ .abortIssued a :: past ∧
      Settled past ∧
        .abortReturned (.ok ids) ∈ later) := by
  obtain ⟨-, hlaw, hphase⟩ := inv_run hrun
  refine ⟨count_createIssued_le_one hlaw, fun hnone e he => ?_,
    fun id result hid hfin => ?_,
    count_completeIssued_le_one hlaw, fun later past r =>
      completeIssued_after_parts hlaw,
    fun later past a hsplit => ?_, fun id e hid hfin hclean => ?_⟩
  · rw [Bool.eq_false_iff]
    intro hd
    obtain ⟨id, hid⟩ := created_of_downstream hlaw he hd
    exact hnone id hid
  · rw [hfin] at hphase
    rcases FinishedInv.completed_or_aborted hlaw hid hphase with hc | ha
    · exact Or.inl ⟨hc, fun ha => not_completed_and_aborted ⟨hc, ha⟩⟩
    · exact Or.inr ⟨ha, fun hc => not_completed_and_aborted ⟨hc, ha⟩⟩
  · rw [hsplit] at hlaw
    exact no_part_after_abort hlaw
  · rw [hfin] at hphase
    exact FinishedInv.clean hlaw hid hphase hclean

end Result

/-! ## A run -/

section OneByte

/-- The caller gives up while the part is in flight; the part fails, the abort
is answered. -/
def oneByteAbort : List Label :=
  [.pollPrepare .pending, .checkCancelled, .createReturns (.ok oneByteUploadId),
    .pollPart 1,
    .sendPart 1, .cancel, .selectCancelled,
      .partResolves 1 (.failed S3Wire.transferTimeout),
    .abortReturns (.ok ⟨none, none⟩)]

def isCreated : Event → Bool
  | .createReturned (.ok id) => id == oneByteUploadId
  | _ => false

def Phase.isCleanError : Phase → Bool
  | .finished (.error e) => e.cleanupFailure.isNone
  | _ => false

theorem multipartUpload_aborts_one_byte :
    ∃ w e, Lib.exec (Worker.step standardSha256)
      (Worker.init oneByteRequest) oneByteAbort = some w ∧
      w.phase = .finished (.error e) ∧ e.cleanupFailure = none ∧
      Aborted oneByteUploadId w.history (.error e) ∧
      ∃ later a past ids, w.history = later ++ .abortIssued a :: past ∧
      Settled past ∧
        .abortReturned (.ok ids) ∈ later := by
  obtain ⟨w, hw, hcheck⟩ := Lib.exec_of_check (Worker.step standardSha256)
    (Worker.init oneByteRequest) oneByteAbort
    (fun w => w.history.any isCreated && w.phase.isCleanError)
      (by decide +kernel)
  simp only [Bool.and_eq_true, List.any_eq_true] at hcheck
  obtain ⟨⟨x, hx, hcreated⟩, hphase⟩ := hcheck
  obtain rfl : x = .createReturned (.ok oneByteUploadId) := by
    unfold isCreated at hcreated
    split at hcreated
    · rw [beq_iff_eq.mp hcreated]
    · cases hcreated
  obtain ⟨e, hfin, hclean⟩ : ∃ e, w.phase = .finished (.error e) ∧
      e.cleanupFailure = none := by
    unfold Phase.isCleanError at hphase
    split at hphase
    · next e heq => exact ⟨e, heq, Option.isNone_iff_eq_none.mp hphase⟩
    · cases hphase
  obtain ⟨-, -, hend, -, -, -, hsettled⟩ :=
    multipartUpload_completes_or_aborts hw
  refine ⟨w, e, hw, hfin, hclean, ?_, hsettled _ e hx hfin hclean⟩
  rcases hend _ _ hx hfin with ⟨⟨output, -, hok, -⟩, -⟩ | ⟨ha, -⟩
  · cases hok
  · exact ha

end OneByte

end S3Wire
