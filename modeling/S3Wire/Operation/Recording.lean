/-
# `S3Wire.Operation.Recording` — parts recorded one after the other

A run of calls of `record_part`, in whatever order the parts arrive and however
often.  What the upload holds at any point has a description that does not
mention insertion (`FirstRecorded`): of every number that was seen, the
descriptor that came first.  One call keeps that (`Holds.record`), so it holds
after every run, and from it follow when a call refuses, why the order of
distinct parts does not show, and when the parts can be completed.
-/
import S3Wire.Operation.Multipart

namespace S3Wire

namespace MultipartUpload

/-- A call on the upload in place: an error leaves it as it was. -/
def record (upload : MultipartUpload) (part : CompletedPart) :
    Except MultipartError Unit × MultipartUpload :=
  match upload.recordPart part with
  | .ok upload' => (.ok (), upload')
  | .error error => (.error error, upload)

/-- The upload after a sequence of calls. -/
def recordAll (upload : MultipartUpload) (parts : List CompletedPart) :
    MultipartUpload :=
  parts.foldl (fun upload part => (upload.record part).2) upload

end MultipartUpload

/-! ## The first descriptor of a number -/

/-- Among the parts there is this one, and it is the first with its number. -/
def FirstRecorded (parts : List CompletedPart) (part : CompletedPart) : Prop :=
  parts.find? (fun earlier => earlier.number == part.number) = some part

section First

variable {parts : List CompletedPart} {part next : CompletedPart}

theorem FirstRecorded.mem (h : FirstRecorded parts part) : part ∈ parts :=
  List.mem_of_find?_eq_some h

theorem firstRecorded_append :
    FirstRecorded (parts ++ [next]) part ↔
      FirstRecorded parts part ∨
      (part = next ∧ ∀ earlier ∈ parts, earlier.number ≠ next.number) := by
  rw [FirstRecorded, FirstRecorded, List.find?_append]
  cases hfound : parts.find? (fun earlier => earlier.number == part.number) with
  | some found =>
      rw [Option.some_or, Option.some_inj]
      constructor
      · exact .inl
      · rintro (h | ⟨rfl, hnew⟩)
        · exact h
        · exact absurd
            (eq_of_beq
              (List.find?_some
                (p := fun q : CompletedPart => q.number == part.number) hfound))
            (hnew found (List.mem_of_find?_eq_some hfound))
  | none =>
      have hnone := List.find?_eq_none.mp hfound
      rw [Option.none_or, List.find?_singleton]
      by_cases hnumber : next.number = part.number
      · rw [if_pos (beq_iff_eq.mpr hnumber), Option.some_inj]
        constructor
        · rintro rfl
          refine .inr ⟨rfl, ?_⟩
          intro earlier hearlier hsame
          exact hnone earlier hearlier (beq_iff_eq.mpr hsame)
        · rintro (h | ⟨rfl, -⟩)
          · cases h
          · rfl
      · rw [if_neg fun h => hnumber (eq_of_beq h)]
        constructor
        · intro h
          cases h
        · rintro (h | ⟨rfl, -⟩)
          · cases h
          · exact absurd rfl hnumber

theorem exists_firstRecorded (h : part ∈ parts) :
    ∃ first, FirstRecorded parts first ∧ first.number = part.number := by
  have hsome :
      (parts.find? fun earlier => earlier.number == part.number).isSome =
          true := by
    rw [List.find?_isSome]
    exact ⟨part, h, beq_self_eq_true part.number⟩
  obtain ⟨first, hfirst⟩ := Option.isSome_iff_exists.mp hsome
  have hnumber : first.number = part.number :=
    eq_of_beq
      (List.find?_some
        (p := fun earlier : CompletedPart => earlier.number == part.number)
          hfirst)
  refine ⟨first, ?_, hnumber⟩
  rw [FirstRecorded, hnumber]
  exact hfirst

theorem firstRecorded_iff_mem
    (hdistinct : ∀ p ∈ parts, ∀ q ∈ parts, p.number = q.number → p = q) :
    FirstRecorded parts part ↔ part ∈ parts := by
  constructor
  · exact FirstRecorded.mem
  · intro hmem
    obtain ⟨first, hfirst, hnumber⟩ := exists_firstRecorded hmem
    rwa [← hdistinct first hfirst.mem part hmem hnumber]

end First

/-! ## What the upload holds -/

/-- The upload holds the first descriptor of every number among the parts. -/
def MultipartUpload.Holds (upload : MultipartUpload)
    (parts : List CompletedPart) : Prop :=
  ∀ part, part ∈ upload.completedParts ↔ FirstRecorded parts part

namespace MultipartUpload

variable {upload upload' : MultipartUpload} {parts parts' : List CompletedPart}
  {part : CompletedPart}

theorem Holds.number_iff (h : upload.Holds parts) (n : Nat) :
    (∃ p ∈ upload.completedParts, p.number = n) ↔
    ∃ p ∈ parts, p.number = n := by
  constructor
  · rintro ⟨p, hp, hn⟩
    exact ⟨p, ((h p).mp hp).mem, hn⟩
  · rintro ⟨p, hp, rfl⟩
    obtain ⟨first, hfirst, hnumber⟩ := exists_firstRecorded hp
    exact ⟨first, (h first).mpr hfirst, hnumber⟩

/-- One call: either the number is new and the part goes in, or it was seen and
nothing changes. -/
theorem Holds.record (h : upload.Holds parts) (part : CompletedPart) :
    (upload.record part).2.Holds (parts ++ [part]) ∧
    (upload.record part).2.key = upload.key ∧
      (upload.record part).2.uploadId = upload.uploadId ∧
      ((upload.record part).1 = .ok () ∧ (∀ p ∈ parts, p.number ≠ part.number) ∨
        upload.record part = (.error (.duplicatePart part.partNumber), upload) ∧
          ∃ p ∈ parts, p.number = part.number) := by
  rw [MultipartUpload.record]
  cases hrecord : upload.recordPart part with
  | ok upload' =>
      obtain ⟨hkey, hid, hperm, hnew⟩ := recordPart_ok hrecord
      have hnew' : ∀ p ∈ parts, p.number ≠ part.number := by
        intro p hp hnumber
        obtain ⟨q, hq, hqn⟩ := (h.number_iff part.number).mpr ⟨p, hp, hnumber⟩
        exact hnew q hq hqn
      refine ⟨?_, hkey, hid, .inl ⟨rfl, hnew'⟩⟩
      intro p
      rw [hperm.mem_iff, List.mem_cons, firstRecorded_append, h p]
      constructor
      · rintro (rfl | hp)
        · exact .inr ⟨rfl, hnew'⟩
        · exact .inl hp
      · rintro (hp | ⟨rfl, -⟩)
        · exact .inr hp
        · exact .inl rfl
  | error error =>
      obtain ⟨rfl, hseen⟩ := recordPart_error hrecord
      have hseen' := (h.number_iff part.number).mp hseen
      refine ⟨?_, rfl, rfl, .inr ⟨rfl, hseen'⟩⟩
      intro p
      rw [firstRecorded_append, h p]
      constructor
      · exact .inl
      · rintro (hp | ⟨rfl, hnew⟩)
        · exact hp
        · obtain ⟨q, hq, hqn⟩ := hseen'
          exact absurd hqn (hnew q hq)

theorem holds_recordAll (key : ObjectKey) (uploadId : UploadId)
    (parts : List CompletedPart) :
    ((new key uploadId).recordAll parts).Holds parts ∧
    ((new key uploadId).recordAll parts).key = key ∧
      ((new key uploadId).recordAll parts).uploadId = uploadId := by
  induction parts using List.reverseRecOn with
  | nil =>
      refine ⟨?_, rfl, rfl⟩
      intro part
      exact iff_of_false List.not_mem_nil fun h => nomatch h
  | append_singleton parts part ih =>
      obtain ⟨hholds, hkey, hid⟩ := ih
      obtain ⟨hnext, hkey', hid', -⟩ := hholds.record part
      rw [recordAll, List.foldl_append]
      exact ⟨hnext, hkey'.trans hkey, hid'.trans hid⟩

/-- The parts are in order, so what is held determines the upload. -/
theorem eq_of_holds (hkey : upload.key = upload'.key)
    (hid : upload.uploadId = upload'.uploadId)
    (hmem : ∀ p, p ∈ upload.completedParts ↔ p ∈ upload'.completedParts) :
    upload = upload' := by
  obtain ⟨key, uploadId, completedParts, ascending⟩ := upload
  obtain ⟨key', uploadId', completedParts', ascending'⟩ := upload'
  obtain rfl := hkey
  obtain rfl := hid
  have hperm : completedParts.Perm completedParts' :=
    (List.perm_ext_iff_of_nodup ascending.nodup ascending'.nodup).mpr hmem
  obtain rfl := ascending.eq_of_perm ascending' hperm
  rfl

/-- Whatever the calls: the parts are in order and are the first of their
numbers; a further call is refused exactly for a number that was seen, and then
changes nothing; parts with distinct numbers leave the same upload in every
order; and the parts can be completed when there is one. -/
theorem recordAll_spec (key : ObjectKey) (uploadId : UploadId)
    (parts : List CompletedPart) :
    Lib.KeySorted CompletedPart.number
      ((new key uploadId).recordAll parts).completedParts ∧
    (∀ part, part ∈ ((new key uploadId).recordAll parts).completedParts ↔
      FirstRecorded parts part) ∧
    (∀ part,
      ((((new key uploadId).recordAll parts).record part).1 =
        .error (.duplicatePart part.partNumber) ↔
        ∃ earlier ∈ parts, earlier.partNumber = part.partNumber) ∧
      ((∃ earlier ∈ parts, earlier.partNumber = part.partNumber) →
        (((new key uploadId).recordAll parts).record part).2 =
          (new key uploadId).recordAll parts) ∧
      ((¬∃ earlier ∈ parts, earlier.partNumber = part.partNumber) →
        (((new key uploadId).recordAll parts).record part).1 = .ok ())) ∧
    (∀ parts', (parts.map CompletedPart.partNumber).Nodup →
      (∀ part, part ∈ parts ↔ part ∈ parts') →
      (new key uploadId).recordAll parts =
        (new key uploadId).recordAll parts') ∧
    ((∃ request, CompleteMultipartUploadRequest.new key uploadId
        ((new key uploadId).recordAll parts).completedParts = .ok request) ↔
        parts ≠ []) := by
  obtain ⟨hholds, hkey, hid⟩ := holds_recordAll key uploadId parts
  refine ⟨((new key uploadId).recordAll parts).ascending, hholds, ?_, ?_, ?_⟩
  · intro part
    have hnumber : (∃ earlier ∈ parts, earlier.partNumber = part.partNumber) ↔
        ∃ earlier ∈ parts, earlier.number = part.number :=
      exists_congr fun _ => and_congr_right fun _ =>
        ⟨congrArg PartNumber.get, PartNumber.ext_get⟩
    rw [hnumber]
    obtain ⟨-, -, -, hcall⟩ := hholds.record part
    rcases hcall with ⟨hok, hnew⟩ | ⟨hduplicate, hseen⟩
    · have hnone : ¬∃ earlier ∈ parts, earlier.number = part.number := by
        rintro ⟨earlier, hearlier, hsame⟩
        exact hnew earlier hearlier hsame
      rw [hok]
      refine ⟨iff_of_false (fun h => nomatch h) hnone, ?_, fun _ => rfl⟩
      intro hseen
      exact absurd hseen hnone
    · rw [hduplicate]
      refine ⟨iff_of_true rfl hseen, fun _ => rfl, ?_⟩
      intro hnone
      exact absurd hseen hnone
  · intro parts' hnodup hsame
    obtain ⟨hholds', hkey', hid'⟩ := holds_recordAll key uploadId parts'
    have hdistinct : ∀ p ∈ parts, ∀ q ∈ parts, p.number = q.number → p = q :=
      fun p hp q hq hnumber =>
      List.inj_on_of_nodup_map hnodup hp hq (PartNumber.ext_get hnumber)
    have hdistinct' : ∀ p ∈ parts', ∀ q ∈ parts', p.number = q.number → p = q :=
      fun p hp q hq =>
      hdistinct p ((hsame p).mpr hp) q ((hsame q).mpr hq)
    refine eq_of_holds (hkey.trans hkey'.symm) (hid.trans hid'.symm) ?_
    intro p
    rw [hholds p, hholds' p, firstRecorded_iff_mem hdistinct,
      firstRecorded_iff_mem hdistinct', hsame p]
  · constructor
    · rintro ⟨request, hrequest⟩ rfl
      cases hrequest
    · intro hne
      obtain ⟨part, hpart⟩ := List.exists_mem_of_ne_nil parts hne
      obtain ⟨first, hfirst, -⟩ := exists_firstRecorded hpart
      have hnonempty := List.ne_nil_of_mem ((hholds first).mpr hfirst)
      have hnew := CompleteMultipartUploadRequest.new_of_upload _ hnonempty
      rw [hkey, hid] at hnew
      exact ⟨_, hnew⟩

end MultipartUpload

end S3Wire
