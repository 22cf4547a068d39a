/-
# `S3Wire.Client.MultipartUpload.Parts` — a finished part phase uploads the source

The functional half of the managed upload.  Whatever order the parts resolve in,
when `upload_parts` returns an upload then each of the parts `1 … n` was started
once and no other was, the recorded descriptors are those of the parts `1 … n`
in order, each with what the service returned for that number, and the bodies
that went out are the consecutive slices of the source.  On the way, no run ever
takes the branches the source guards against: a duplicate part, a lost future, a
slice out of bounds, a completion request that is refused.
-/
import S3Wire.Client.MultipartUpload.Discipline

namespace S3Wire

/-! ## What a lawful history cannot contain, and what it contains once -/

section Histories

variable {q : ManagedMultipartUploadRequest} {h later past : List Event}

/-- A part pushed under this number. -/
def isPushed (i : Nat) : Event → Bool
  | .partPushed j => j == i
  | _ => false

/-- A part begun under this number. -/
def isBegun (i : Nat) : Event → Bool
  | .partBegun j => j == i
  | _ => false

theorem isPushed_iff {i : Nat} {e : Event} : isPushed i e = true ↔
    e = .partPushed i := by
  cases e <;> simp [isPushed]

theorem isBegun_iff {i : Nat} {e : Event} : isBegun i e = true ↔
    e = .partBegun i := by
  cases e <;> simp [isBegun]

theorem Lawful.open_of_part {e : Event} (hl : Lawful q e past)
    (he : e.isPart = true) : Open past := by
  cases e <;> first | exact hl.1 | cases he

theorem prepared_unique (hj : Lib.Justified (Lawful q) h)
    {s t : PreparedMultipartSource} (hs : .prepared s ∈ h)
    (ht : .prepared t ∈ h) : s = t := by
  have heq :=
    Lib.Justified.eq_of_mem (p := fun e => ∃ s, e = .prepared s)
        (fun hl he x hx hp => by
    obtain ⟨s, rfl⟩ := he
    obtain ⟨t, rfl⟩ := hp
    cases hl.1 _ hx) hj hs ht ⟨s, rfl⟩ ⟨t, rfl⟩
  cases heq
  rfl

theorem count_pushed_le_one (hj : Lib.Justified (Lawful q) h) (i : Nat) :
    h.countP (isPushed i) ≤ 1 := by
  refine Lib.Justified.countP_le_one (fun hl he x hx => ?_) hj
  obtain rfl := isPushed_iff.mp he
  rw [Bool.eq_false_iff]
  intro hxp
  rw [isPushed_iff.mp hxp] at hx
  exact hl.2 hx

theorem count_begun_le_one (hj : Lib.Justified (Lawful q) h) (i : Nat) :
    h.countP (isBegun i) ≤ 1 := by
  refine Lib.Justified.countP_le_one (fun hl he x hx => ?_) hj
  obtain rfl := isBegun_iff.mp he
  rw [Bool.eq_false_iff]
  intro hxp
  rw [isBegun_iff.mp hxp] at hx
  exact hl.2.2 hx

theorem reply_unique {i : Nat} {r r' : PartReply}
    (hj : Lib.Justified (Lawful q) h) (hr : .partResolved i r ∈ h)
    (hr' : .partResolved i r' ∈ h) : r = r' := by
  have heq := Lib.Justified.eq_of_mem (p := fun e => ∃ r, e = .partResolved i r)
    (fun hl he x hx hp => by
      obtain ⟨r, rfl⟩ := he
      obtain ⟨r', rfl⟩ := hp
      exact hl.2.2.1 r' hx) hj hr hr' ⟨r, rfl⟩ ⟨r', rfl⟩
  cases heq
  rfl

theorem no_part_after_uploaded {upload : MultipartUpload}
    (hj : Lib.Justified (Lawful q) (later ++ .partsUploaded upload :: past)) :
    ∀ x ∈ later, x.isPart = false := by
  intro x hx
  rw [Bool.eq_false_iff]
  refine Lib.Justified.not_after (p := fun e => e = .partsUploaded upload)
    (q := fun e => e.isPart = true) (fun hl he y hy hp => ?_) hj rfl x hx
  subst hp
  exact Bool.false_ne_true ((hl.open_of_part he).2 _ hy)

theorem mem_past_of_part {upload : MultipartUpload} {e : Event}
    (hj : Lib.Justified (Lawful q) (later ++ .partsUploaded upload :: past))
    (he : e.isPart = true) (hmem : e ∈ later ++ .partsUploaded upload :: past) :
    e ∈ past := by
  rcases List.mem_append.mp hmem with hl | hr
  · rw [no_part_after_uploaded hj e hl] at he
    cases he
  · rcases List.mem_cons.mp hr with rfl | hr
    · cases he
    · exact hr

theorem countP_eq_one {p : Event → Bool} {e : Event} (hle : h.countP p ≤ 1)
    (he : e ∈ h) (hp : p e = true) : h.countP p = 1 :=
  le_antisymm hle (List.countP_pos_iff.mpr ⟨e, he, hp⟩)

end Histories

/-! ## The source, part by part -/

section Bodies

variable {source : PreparedMultipartSource} {k n : Nat}

/-- The bodies of the parts: each is what `read_part` returns, all but the last
are full, the last is not empty, and together they are the source. -/
theorem bodies_cover (hk : 0 < k) (hcount : source.partCount k = .ok n) :
    (∀ i, 1 ≤ i → i ≤ n →
      source.readPart k i = .ok (Lib.piece k source.content (i - 1)) ∧
      (i < n → (Lib.piece k source.content (i - 1)).length = k) ∧
      Lib.piece k source.content (i - 1) ≠ []) ∧
    ((List.range n).map fun i => Lib.piece k source.content i).flatten =
      source.content := by
  obtain ⟨hpos, -, hlast, hcover⟩ :=
    PreparedMultipartSource.partCount_ok hk hcount
  refine ⟨fun i h1 h2 => ⟨?_, fun hlt => ?_, ?_⟩, Lib.flatten_pieces hcover⟩
  · refine PreparedMultipartSource.readPart_eq (by omega)
      (lt_of_le_of_lt ?_ hlast)
    exact Nat.mul_le_mul_right _ (by omega)
  · exact Lib.length_piece_of_lt (n := n) (by omega) hlast
  · exact Lib.piece_ne_nil hk
      (lt_of_le_of_lt (Nat.mul_le_mul_right _ (by omega)) hlast)

end Bodies

/-! ## The result -/

section Result

variable {q : ManagedMultipartUploadRequest} {h : List Event}
  {source : PreparedMultipartSource}
  {n : Nat} {upload : MultipartUpload}

theorem pushed_of_begun (hj : Lib.Justified (Lawful q) h) {i : Nat}
    (hb : .partBegun i ∈ h) :
    .partPushed i ∈ h := by
  obtain ⟨past, hsuffix, hl⟩ := hj.of_mem hb
  exact hsuffix.subset hl.2.1

theorem begun_of_resolved (hj : Lib.Justified (Lawful q) h) {i : Nat}
    {reply : PartReply} (hr : .partResolved i reply ∈ h) :
    .partBegun i ∈ h := by
  obtain ⟨past, hsuffix, hl⟩ := hj.of_mem hr
  exact hsuffix.subset hl.2.1

theorem sent_of_response (hj : Lib.Justified (Lawful q) h) {i : Nat}
    {headers : HeaderMap} (hr : .partResolved i (.response headers) ∈ h) :
    ∃ r, .partSent r ∈ h ∧ r.partNumber.get = i := by
  obtain ⟨past, hsuffix, hl⟩ := hj.of_mem hr
  obtain ⟨r, hsent, hnumber⟩ := hl.2.2.2 headers rfl
  exact ⟨r, hsuffix.subset hsent, hnumber⟩

theorem body_of_sent (hj : Lib.Justified (Lawful q) h)
    (hsource : .prepared source ∈ h) {r : UploadPartRequest}
    (hr : .partSent r ∈ h) :
    source.readPart q.options.partSize r.partNumber.get = .ok r.body := by
  obtain ⟨past, hsuffix, hl⟩ := hj.of_mem hr
  obtain ⟨s, hs, hread⟩ := hl.2.2
  rwa [prepared_unique hj hsource (hsuffix.subset hs)]

theorem uploaded_of_mem (hj : Lib.Justified (Lawful q) h)
    (hsource : .prepared source ∈ h)
    (hcount : source.partCount q.options.partSize = .ok n)
    (hup : .partsUploaded upload ∈ h) :
    upload.completedParts.map CompletedPart.number =
      (List.range n).map (· + 1) ∧
      (∀ i, .partPushed i ∈ h ↔ 1 ≤ i ∧ i ≤ n) ∧
      (∀ i, 1 ≤ i → i ≤ n → ∃ reply, .partResolved i reply ∈ h) ∧
      ∀ p ∈ upload.completedParts, ∃ reply,
        .partResolved p.number reply ∈ h ∧
        partResult p.number reply = .ok p := by
  obtain ⟨later, past, rfl⟩ := List.append_of_mem hup
  have hpast : ∀ e ∈ past, e ∈ later ++ .partsUploaded upload :: past :=
    fun e he => by simp [he]
  obtain ⟨-, hsettled, s, m, hs, hm, hnumbers, hpushed, honly⟩ := hj.at_split
  obtain rfl := prepared_unique hj hsource (hpast _ hs)
  rw [hcount] at hm
  obtain rfl := Except.ok.inj hm
  refine ⟨hnumbers, fun i => ?_, fun i h1 h2 => ?_, fun p hp => ?_⟩
  · rw [← hpushed i]
    exact ⟨mem_past_of_part hj rfl, hpast _⟩
  · obtain ⟨reply, hreply⟩ := hsettled i ((hpushed i).mpr ⟨h1, h2⟩)
    exact ⟨reply, hpast _ hreply⟩
  · obtain ⟨reply, hreply, hres⟩ := honly p hp
    exact ⟨reply, hpast _ hreply, hres⟩

theorem recorded_response (hj : Lib.Justified (Lawful q) h) {p : CompletedPart}
    {reply : PartReply} (hreply : .partResolved p.number reply ∈ h)
    (hres : partResult p.number reply = .ok p) :
    ∃ headers output, .partResolved p.number (.response headers) ∈ h ∧
      (∀ r, .partResolved p.number r ∈ h → r = .response headers) ∧
      uploadPartOutput p.partNumber headers = .ok output ∧
      p.eTag = output.eTag ∧ p.checksum = output.checksum := by
  obtain ⟨-, headers, number, rfl, hnumber, hcomplete⟩ := partResult_ok hres
  obtain ⟨-, output, houtput, htag, hsum⟩ := completePart_ok hcomplete
  obtain rfl : number = p.partNumber := PartNumber.ext_get hnumber
  exact ⟨headers, output, hreply, fun r hr => reply_unique hj hr hreply,
    houtput, htag, hsum⟩

variable {sha : Sha256} {w : Worker} {labels : List Label}

/-- **A part phase that returns uploads the source.**  In every run over a
source of `n` parts: no branch that guards against a broken schedule is taken;
and once `upload_parts` has returned, each of the parts `1 … n` was pushed and
begun once and no other was, the recorded parts are the parts `1 … n` in order
with the tag and checksums of the response to that number, and what was sent for
part `i` is `read_part(part_size, i)` — full parts, a last one that is not
empty, together the source. -/
theorem uploadParts_uploads_source
    (hrun : Lib.exec (Worker.step sha) (Worker.init q) labels = some w)
    (hsource : .prepared source ∈ w.history)
    (hcount : source.partCount q.options.partSize = .ok n) :
    (∀ buffer, q.source = .bytes buffer → source = .bytes buffer) ∧
    (∀ e ∈ w.history, e ≠ .panicked ∧ e ≠ .schedulerLost ∧
      (∀ r, e ≠ .recordRejected r) ∧
      ∀ r, e ≠ .completionRejected r) ∧
    (∀ i, 1 ≤ i → i ≤ n → ∃ body, source.readPart q.options.partSize i =
      .ok body) ∧
    ∀ upload, .partsUploaded upload ∈ w.history →
      (∀ i, w.history.countP (isPushed i) = (if 1 ≤ i ∧ i ≤ n then 1 else 0) ∧
        w.history.countP (isBegun i) = (if 1 ≤ i ∧ i ≤ n then 1 else 0)) ∧
      upload.completedParts.map CompletedPart.number =
        (List.range n).map (· + 1) ∧
      (∀ p ∈ upload.completedParts, ∃ headers output,
        .partResolved p.number (.response headers) ∈ w.history ∧
        (∀ reply, .partResolved p.number reply ∈ w.history →
          reply = .response headers) ∧
        uploadPartOutput p.partNumber headers = .ok output ∧
        p.eTag = output.eTag ∧ p.checksum = output.checksum) ∧
      (∀ r, .partSent r ∈ w.history →
        source.readPart q.options.partSize r.partNumber.get = .ok r.body) ∧
      ∃ bodies : List Bytes, bodies.length = n ∧
        (∀ i (hi : i < bodies.length),
          (∃ r, .partSent r ∈ w.history ∧ r.partNumber.get = i + 1 ∧
            r.body = bodies[i]) ∧
          source.readPart q.options.partSize (i + 1) = .ok bodies[i] ∧
          (i + 1 < n → bodies[i].length = q.options.partSize) ∧
          bodies[i] ≠ []) ∧
        bodies.flatten = source.content := by
  obtain ⟨-, hlaw, -⟩ := inv_run hrun
  have hk : 0 < q.options.partSize :=
    lt_of_lt_of_le (by decide) q.options.partSize_ge
  obtain ⟨hbodies, hflatten⟩ := bodies_cover hk hcount
  refine ⟨?_, ?_, fun i h1 h2 => ⟨_, (hbodies i h1 h2).1⟩, ?_⟩
  · obtain ⟨past, -, hl⟩ := hlaw.of_mem hsource
    exact hl.2
  · intro e he
    obtain ⟨past, -, hl⟩ := hlaw.of_mem he
    refine ⟨?_, ?_, fun r => ?_, fun r => ?_⟩ <;>
      · rintro rfl
        exact hl
  intro upload hup
  obtain ⟨hnumbers, hpushed, hresolved, honly⟩ :=
    uploaded_of_mem hlaw hsource hcount hup
  have hbegun : ∀ i, .partBegun i ∈ w.history ↔ 1 ≤ i ∧ i ≤ n := by
    intro i
    refine ⟨fun hb => (hpushed i).mp (pushed_of_begun hlaw hb),
      fun ⟨h1, h2⟩ => ?_⟩
    obtain ⟨reply, hreply⟩ := hresolved i h1 h2
    exact begun_of_resolved hlaw hreply
  refine ⟨fun i => ⟨?_, ?_⟩, hnumbers, fun p hp => ?_,
    fun r hr => body_of_sent hlaw hsource hr,
    (List.range n).map fun i => Lib.piece q.options.partSize source.content i,
      by simp, ?_, hflatten⟩
  · split
    · next hi =>
        exact countP_eq_one (count_pushed_le_one hlaw i) ((hpushed i).mpr hi)
          (isPushed_iff.mpr rfl)
    · next hi =>
        refine List.countP_eq_zero.mpr fun e he hp => hi ((hpushed i).mp ?_)
        rwa [isPushed_iff.mp hp] at he
  · split
    · next hi =>
        exact countP_eq_one (count_begun_le_one hlaw i) ((hbegun i).mpr hi)
          (isBegun_iff.mpr rfl)
    · next hi =>
        refine List.countP_eq_zero.mpr fun e he hp => hi ((hbegun i).mp ?_)
        rwa [isBegun_iff.mp hp] at he
  · obtain ⟨reply, hreply, hres⟩ := honly p hp
    exact recorded_response hlaw hreply hres
  · intro i hi
    have hin : i < n := by simpa using hi
    obtain ⟨hread, hfull, hne⟩ := hbodies (i + 1) (by omega) (by omega)
    simp only [Nat.add_sub_cancel] at hread hfull hne
    rw [List.getElem_map, List.getElem_range]
    refine ⟨?_, hread, hfull, hne⟩
    -- part `i + 1` is recorded, so it got a response, so it was sent
    have hmem : i + 1 ∈ upload.completedParts.map CompletedPart.number := by
      rw [hnumbers]
      exact List.mem_map.mpr ⟨i, List.mem_range.mpr hin, rfl⟩
    obtain ⟨p, hp, hpn⟩ := List.mem_map.mp hmem
    obtain ⟨reply, hreply, hres⟩ := honly p hp
    obtain ⟨headers, -, hresponse, -⟩ := recorded_response hlaw hreply hres
    obtain ⟨r, hr, hrn⟩ := sent_of_response hlaw hresponse
    have hbody := body_of_sent hlaw hsource hr
    rw [hrn, hpn, hread] at hbody
    exact ⟨r, hr, hrn.trans hpn, (Except.ok.inj hbody).symm⟩

end Result

/-! ## Steps that are there to be taken -/

namespace Worker

section Enabled

variable {sha : Sha256} {w : Worker} {job : Job} {number : Nat}

theorem step_pollPart {body : Bytes} (hphase : w.phase = .uploading job)
    (hfind : job.find number = some ⟨number, .unpolled⟩)
    (hread : job.context.source.readPart job.context.partSize number =
      .ok body) :
    w.step sha (.pollPart number) =
      some ((w.log (.partBegun number)).goto
        (.uploading (job.setStage number .begun))) := by
  rw [step.eq_def, hphase]
  dsimp only
  rw [beginPart, hfind]
  dsimp only
  rw [hread]

theorem step_sendPart {request : UploadPartRequest}
    (hphase : w.phase = .uploading job)
    (hfind : job.find number = some ⟨number, .begun⟩)
    (hprepare : preparePart sha job.context number = .ok request) :
    w.step sha (.sendPart number) =
      some ((w.log (.partSent request)).goto
        (.uploading (job.setStage number .sent))) := by
  rw [step.eq_def, hphase]
  dsimp only
  rw [sendPart, hfind]
  dsimp only
  rw [hprepare]

theorem step_partResolves {headers : HeaderMap} {part : CompletedPart}
    {upload : MultipartUpload} (hphase : w.phase = .uploading job)
    (hfind : job.find number = some ⟨number, .sent⟩)
    (hresult : partResult number (.response headers) = .ok part)
    (hrecord : job.upload.recordPart part = .ok upload) :
    w.step sha (.partResolves number (.response headers)) =
      some ((w.log (.partResolved number (.response headers))).schedule
        { job.remove number with upload := upload }) := by
  rw [step.eq_def, hphase]
  dsimp only
  rw [resolvePart.eq_def, hfind]
  dsimp only
  have hsame : (job.remove number).upload = job.upload := rfl
  rw [Option.map_some, takeResult.eq_def, hresult]
  dsimp only
  rw [hsame, hrecord]

end Enabled

end Worker

/-! ## Two runs -/

section OneByte

def oneByte : Buffer := ⟨[97], by decide⟩

/-- An upload of one byte, in one part and without a checksum. -/
def oneByteRequest : ManagedMultipartUploadRequest where
  key := ⟨"key".toList, by decide, by decide⟩
  source := .bytes oneByte
  contentType := none
  userMetadata := []
  options := ⟨minPartSize, 1, by decide, by decide, by decide, by decide⟩
  checksumAlgorithm := none
  headers := ⟨HeaderMap.new, HeaderMap.new, HeaderMap.new, HeaderMap.new⟩
  calculable := by decide

def oneByteUploadId : UploadId :=
  ⟨"upload".toList, by decide, by decide, by decide⟩

/-- A response with an entity tag and nothing else. -/
def taggedResponse : HeaderMap :=
  HeaderMap.new.insert ⟨"etag".toList, by decide, by decide⟩
    ⟨[34, 116, 34], by decide⟩

/-- From the start to the return of `upload_parts`. -/
def oneByteParts : List Label :=
  [.pollPrepare .pending, .checkCancelled, .createReturns (.ok oneByteUploadId),
    .pollPart 1,
    .sendPart 1, .partResolves 1 (.response taggedResponse)]

end OneByte

/-! Two parts, of which the second is answered first. -/

/-- A byte more than one part holds. -/
def twoPartBuffer : Buffer :=
  ⟨List.replicate (minPartSize + 1) 0, zeroBytes_bounded (by decide)⟩

theorem twoPartBuffer_length :
    (PreparedMultipartSource.bytes twoPartBuffer).content.length =
      minPartSize + 1 :=
  List.length_replicate (a := (0 : UInt8))

theorem twoPartBuffer_count :
    (PreparedMultipartSource.bytes twoPartBuffer).partCount minPartSize =
      .ok 2 :=
  PreparedMultipartSource.partCount_of_length twoPartBuffer_length (by decide)
    (by decide)

section TwoParts

variable {sha : Sha256} {buffer : Buffer}

def twoPartRequest (buffer : Buffer) : ManagedMultipartUploadRequest :=
  { oneByteRequest with
  source := .bytes buffer
  options := ⟨minPartSize, 2, by decide, by decide, by decide, by decide⟩ }

/-- A response with another entity tag. -/
def otherResponse : HeaderMap :=
  HeaderMap.new.insert ⟨"etag".toList, by decide, by decide⟩
    ⟨[34, 117, 34], by decide⟩

def twoPartsSent : List Label :=
  [.pollPart 1, .pollPart 2, .sendPart 1, .sendPart 2]

/-- Until the second part is answered. -/
def twoPartsHalf : List Label :=
  [.pollPrepare .pending, .checkCancelled,
    .createReturns (.ok oneByteUploadId)] ++
    (twoPartsSent ++ [.partResolves 2 (.response otherResponse)])

def twoParts : List Label :=
  twoPartsHalf ++ [.partResolves 1 (.response taggedResponse)]

def firstPart : CompletedPart :=
  ⟨⟨1, by decide, by decide⟩, "\"t\"".toList, {}, by decide⟩

def secondPart : CompletedPart :=
  ⟨⟨2, by decide, by decide⟩, "\"u\"".toList, {}, by decide⟩

theorem firstPart_result :
    partResult 1 (.response taggedResponse) = .ok firstPart := by rfl

theorem secondPart_result :
    partResult 2 (.response otherResponse) = .ok secondPart := by rfl

def twoPartContext (buffer : Buffer) : PartUploadContext :=
  (Worker.init (twoPartRequest buffer)).partContext
    (.bytes buffer) oneByteUploadId

/-- The upload with these parts recorded. -/
def twoPartUpload (parts : List CompletedPart)
    (h : Lib.KeySorted CompletedPart.number parts) :
    MultipartUpload :=
  ⟨oneByteRequest.key, oneByteUploadId, parts, h⟩

theorem secondPart_sorted : Lib.KeySorted CompletedPart.number [secondPart] :=
  List.pairwise_singleton _ _

theorem bothParts_sorted :
    Lib.KeySorted CompletedPart.number [firstPart, secondPart] :=
  List.Pairwise.cons (by decide) secondPart_sorted

theorem secondPart_recorded :
    (twoPartUpload [] List.Pairwise.nil).recordPart secondPart =
    .ok (twoPartUpload [secondPart] secondPart_sorted) := by rfl

theorem firstPart_recorded :
    (twoPartUpload [secondPart] secondPart_sorted).recordPart firstPart =
    .ok (twoPartUpload [firstPart, secondPart] bothParts_sorted) := by rfl

/-- The worker while it uploads the two parts. -/
def twoPartWorker (buffer : Buffer) (pending : List InFlight)
    (upload : MultipartUpload) (history : List Event) : Worker :=
  ⟨twoPartRequest buffer, false, false,
    .uploading ⟨twoPartContext buffer, 2, 3, pending, upload⟩,
    history⟩

/-- What is seen before a part is polled, latest first. -/
def twoPartsPushed (buffer : Buffer) : List Event :=
  [.partPushed 2, .partPushed 1, .createReturned (.ok oneByteUploadId),
    .createIssued (Worker.init (twoPartRequest buffer)).createRequest,
      .prepared (.bytes buffer)]

def twoPartHistory (buffer : Buffer) (first second : UploadPartRequest) :
    List Event :=
  [.partSent second, .partSent first, .partBegun 2, .partBegun 1] ++
    twoPartsPushed buffer

variable (hcount :
  (PreparedMultipartSource.bytes buffer).partCount minPartSize = .ok 2)

include hcount

theorem twoPart_read {i : Nat} (hi : 0 < i) (hle : i ≤ 2) :
    (twoPartContext buffer).source.readPart (twoPartContext buffer).partSize i =
      .ok (Lib.piece minPartSize buffer.bytes (i - 1)) :=
  ((bodies_cover (by decide) hcount).1 i hi hle).1

theorem twoPart_prepare {i : Nat} (hi : 0 < i) (hle : i ≤ 2) :
    ∃ request, preparePart sha (twoPartContext buffer) i = .ok request := by
  rw [preparePart, twoPart_read hcount hi hle,
    PartNumber.new_of_range hi (hle.trans (by decide))]
  exact ⟨_, rfl⟩

theorem twoParts_pushed :
    Lib.exec (Worker.step sha) (Worker.init (twoPartRequest buffer))
    [.pollPrepare .pending, .checkCancelled,
      .createReturns (.ok oneByteUploadId)] =
      some (twoPartWorker buffer [⟨1, .unpolled⟩, ⟨2, .unpolled⟩]
        (twoPartUpload [] List.Pairwise.nil) (twoPartsPushed buffer)) := by
  have hcounted :
      (Worker.init (twoPartRequest buffer)).countParts (.bytes buffer) =
      ((Worker.init (twoPartRequest buffer)).log
        (.prepared (.bytes buffer))).goto
        (.counted (.bytes buffer) 2) := by
    have hcount' : (PreparedMultipartSource.bytes buffer).partCount
      ((Worker.init (twoPartRequest buffer)).log
        (.prepared (.bytes buffer))).request.options.partSize = .ok 2 := hcount
    rw [Worker.countParts, hcount']
  have hprepared :
      (Worker.init (twoPartRequest buffer)).step sha (.pollPrepare .pending) =
      some (((Worker.init (twoPartRequest buffer)).log
        (.prepared (.bytes buffer))).goto
        (.counted (.bytes buffer) 2)) := congrArg some hcounted
  rw [Lib.exec_of_step hprepared]
  rfl

theorem twoParts_sent {first second : UploadPartRequest}
    (hfirst : preparePart sha (twoPartContext buffer) 1 = .ok first)
    (hsecond : preparePart sha (twoPartContext buffer) 2 = .ok second) :
    Lib.exec (Worker.step sha)
      (twoPartWorker buffer [⟨1, .unpolled⟩, ⟨2, .unpolled⟩]
      (twoPartUpload [] List.Pairwise.nil)
        (twoPartsPushed buffer)) twoPartsSent =
      some (twoPartWorker buffer [⟨1, .sent⟩, ⟨2, .sent⟩]
        (twoPartUpload [] List.Pairwise.nil)
        (twoPartHistory buffer first second)) := by
  have hread₁ := twoPart_read hcount Nat.one_pos one_le_two
  have hread₂ := twoPart_read hcount Nat.two_pos le_rfl
  rw [twoPartsSent, Lib.exec_of_step (Worker.step_pollPart rfl rfl hread₁),
    Lib.exec_of_step (Worker.step_pollPart rfl rfl hread₂),
    Lib.exec_of_step (Worker.step_sendPart rfl rfl hfirst),
    Lib.exec_of_step (Worker.step_sendPart rfl rfl hsecond)]
  rfl

theorem twoParts_half : ∃ first second, Lib.exec (Worker.step sha)
    (Worker.init (twoPartRequest buffer)) twoPartsHalf =
      some (twoPartWorker buffer [⟨1, .sent⟩]
        (twoPartUpload [secondPart] secondPart_sorted)
        (.partResolved 2 (.response otherResponse) ::
          twoPartHistory buffer first second)) := by
  obtain ⟨first, hfirst⟩ :=
    @twoPart_prepare sha buffer hcount 1 (by decide) (by decide)
  obtain ⟨second, hsecond⟩ :=
    @twoPart_prepare sha buffer hcount 2 (by decide) (by decide)
  have hsent := Lib.exec_append [.partResolves 2 (.response otherResponse)]
    (twoParts_sent hcount hfirst hsecond)
  have hother :=
    @Worker.step_partResolves sha (twoPartWorker buffer [⟨1, .sent⟩, ⟨2, .sent⟩]
    (twoPartUpload [] List.Pairwise.nil)
      (twoPartHistory buffer first second)) _ 2 _ _ _ rfl rfl
    secondPart_result secondPart_recorded
  refine ⟨first, second,
    (Lib.exec_append _ (twoParts_pushed hcount)).trans (hsent.trans ?_)⟩
  rw [Lib.exec_of_step hother]
  rfl

theorem twoParts_run : ∃ w first second upload request,
    Lib.exec (Worker.step sha) (Worker.init (twoPartRequest buffer)) twoParts =
      some w ∧
      w.history = [.completeIssued request, .partsUploaded upload,
        .partResolved 1 (.response taggedResponse),
          .partResolved 2 (.response otherResponse)] ++
          twoPartHistory buffer first second ∧
      upload.completedParts = [firstPart, secondPart] ∧
      request.completedParts = [firstPart, secondPart] := by
  obtain ⟨first, second, hhalf⟩ := @twoParts_half sha buffer hcount
  have hlast := @Worker.step_partResolves sha (twoPartWorker buffer [⟨1, .sent⟩]
    (twoPartUpload [secondPart] secondPart_sorted)
    (.partResolved 2 (.response otherResponse) ::
      twoPartHistory buffer first second)) _ 1 _ _ _
    rfl rfl firstPart_result firstPart_recorded
  have hrun :=
    Lib.exec_append [.partResolves 1 (.response taggedResponse)] hhalf
  rw [Lib.exec_of_step hlast] at hrun
  exact ⟨_, first, second, _, _, hrun, rfl, rfl, rfl⟩

end TwoParts

theorem uploadParts_uploads_two_parts : ∃ w upload,
    Lib.exec (Worker.step standardSha256)
      (Worker.init (twoPartRequest twoPartBuffer)) twoParts =
      some w ∧
    .partsUploaded upload ∈ w.history ∧
    upload.completedParts.map CompletedPart.number = [1, 2] ∧
    (∀ i, w.history.countP (isBegun i) = if 1 ≤ i ∧ i ≤ 2 then 1 else 0) ∧
    ∃ bodies : List Bytes, bodies.length = 2 ∧
    bodies.flatten = twoPartBuffer.bytes := by
  obtain ⟨w, first, second, upload, request, hw, hhistory, -, -⟩ :=
    @twoParts_run standardSha256 twoPartBuffer twoPartBuffer_count
  have hprepared : .prepared (.bytes twoPartBuffer) ∈ w.history := by
    rw [hhistory]
    simp [twoPartHistory, twoPartsPushed]
  have huploaded : .partsUploaded upload ∈ w.history := by
    rw [hhistory]
    simp
  obtain ⟨hcounts, hnumbers, -, -, bodies, hlength, -, hflatten⟩ :=
    (uploadParts_uploads_source hw hprepared twoPartBuffer_count).2.2.2 upload
      huploaded
  exact ⟨w, upload, hw, huploaded, hnumbers, fun i => (hcounts i).2, bodies,
    hlength, hflatten⟩


end S3Wire
