/-
# `S3Wire.Client.Download` — a file is replaced by a verified object, or not at all

`src/client/download.rs`, with the last lines of `get_object` in
`src/client/object/operations.rs`.  An object is downloaded into a temporary
file beside its destination; the destination is replaced, by a rename, after the
whole body was written and the file was synced.

The file system is a map from paths to contents.  What it answers is in
`DownloadWorld`: a temporary file has a path that was free, it is removed when
it is dropped, and `persist` is an atomic rename.  A future that is dropped
while it waits leaves no result (`none`).
-/
import S3Wire.Operation.Object
import S3Wire.Stream.Verified

namespace S3Wire

/-- The files there are, and what they hold. -/
abbrev FileSystem := Str → Option Bytes

namespace FileSystem

/-- The path has this content, whatever it had. -/
def write (fs : FileSystem) (path : Str) (content : Bytes) : FileSystem :=
  Function.update fs path (some content)

/-- Nothing is at the path. -/
def remove (fs : FileSystem) (path : Str) : FileSystem :=
  Function.update fs path none

/-- An atomic rename; a file that is there is replaced. -/
def rename (fs : FileSystem) (source destination : Str) : FileSystem :=
  Function.update (fs.remove source) destination (fs source)

end FileSystem

/-! ## The object -/

/-- What a response to GET says about its object, and the body that follows. -/
structure ObjectResponse where
  metadata : ObjectMetadata
  contentRange : Option (UInt64 × UInt64 × Option UInt64)
  /-- `verified_download_sha256` of the headers. -/
  sha256 : Option Bytes
  contentLength : Option UInt64
  body : List DownloadEvent

/-- The digest of the response covers the whole object, so a range is not
checked against it. -/
def ObjectResponse.expectedSha256 (r : ObjectResponse) : Option Bytes :=
  r.sha256.filter fun _ => r.contentRange.isNone

/-- The end of `get_object`, at the reading `now` of the clock. -/
def ObjectResponse.output (r : ObjectResponse) (idleTimeout : Duration)
    (deadline now : Instant) :
    GetObjectOutput where
  metadata := r.metadata
  body := ResponseStream.withDeadline r.body r.contentLength r.expectedSha256
    idleTimeout deadline now
  contentRange := r.contentRange

/-! ## The download -/

/-- What a download that was written to a file returns. -/
structure DownloadToPathOutput where
  metadata : ObjectMetadata
  bytesWritten : Nat
  path : Str

/-- What becomes of the temporary file: its path was free before. -/
inductive TemporaryFile (fs : FileSystem) where
  | created (path : Str) (free : fs path = none)
  | failed
  | cancelled

/-- What the world answers to one call of `download_to_path`.  `none` stands for
a future that is dropped while it waits for the answer. -/
structure DownloadWorld (fs : FileSystem) where
  /-- `Path::parent` of the destination. -/
  parent : Option Str
  /-- A temporary file in this directory. -/
  temporary : Str → Option (TemporaryFile fs)
  clones : Bool
  response : Option (Except S3Error ObjectResponse)
  idleTimeout : Duration
  deadline : Instant
  now : Instant
  /-- The polls of the body. -/
  polls : List PollClock
  /-- What the temporary file makes of what is written to it. -/
  answers : List (Option Nat)
  flushes : Bool
  syncs : Option Bool
  persists : Bool

/-- The temporary file is created beside the destination. -/
def downloadParent (parent : Option Str) : Str :=
  match parent with
  | some path => if path.isEmpty then "." else path
  | none => "."

/-- `persist_download`; a file that was not renamed is dropped. -/
def persistDownload (fs : FileSystem) (persists : Bool)
    (temporary destination : Str) :
    Except S3Error Unit × FileSystem :=
  if persists then (.ok (), fs.rename temporary destination)
  else (.error S3Error.transport, fs.remove temporary)

/-- `S3Client::download_to_path`: the result, and the files after it. -/
def downloadToPath (sha : Sha256) (fs : FileSystem) (world : DownloadWorld fs)
    (destination : Str) :
    Option (Except S3Error DownloadToPathOutput) × FileSystem :=
  match world.temporary (downloadParent world.parent) with
  | none => (none, fs)
  | some .cancelled =>
      (some (.error
        (S3Error.cancellation
          "temporary download file creation was cancelled")), fs)
  | some .failed => (some (.error S3Error.transport), fs)
  | some (.created path _) =>
      let fs := fs.write path []
      if !world.clones then (some (.error S3Error.transport), fs.remove path)
      else
        match world.response with
        | none => (none, fs.remove path)
        | some (.error e) => (some (.error e), fs.remove path)
        | some (.ok response) =>
            let output :=
              response.output world.idleTimeout world.deadline world.now
            let (result, writer) :=
              output.body.writeTo sha world.polls
                ⟨[], world.answers, world.flushes⟩ 0
            let fs := fs.write path writer.content
            match result with
            | none => (none, fs.remove path)
            | some (.error e) => (some (.error e), fs.remove path)
            | some (.ok bytesWritten) =>
                match world.syncs with
                | none => (none, fs.remove path)
                | some false =>
                    (some (.error S3Error.transport), fs.remove path)
                | some true =>
                    match persistDownload fs world.persists path destination
                        with
                    | (.error e, fs) => (some (.error e), fs)
                    | (.ok (), fs) =>
                        (some (.ok
                          ⟨output.metadata, bytesWritten, destination⟩), fs)

/-! ## What the download leaves behind -/

section Download

variable {sha : Sha256} {fs fs' : FileSystem} {path destination : Str}

theorem FileSystem.write_write (fs : FileSystem) (path : Str) (a b : Bytes) :
    (fs.write path a).write path b = fs.write path b := Function.update_idem ..

theorem FileSystem.remove_write (h : fs path = none) (content : Bytes) :
    (fs.write path content).remove path = fs := by
  rw [remove, write, Function.update_idem, ← h, Function.update_eq_self]

theorem FileSystem.rename_write (h : fs path = none) (content : Bytes) :
    (fs.write path content).rename path destination =
      fs.write destination content := by
  rw [rename, remove_write h]
  show Function.update fs destination ((fs.write path content) path) = _
  rw [write, Function.update_self]
  rfl

/-- How a download ends: the files are as they were, or the body was written out
and its file took the place of the destination. -/
theorem downloadToPath_cases {world : DownloadWorld fs}
    {result : Option (Except S3Error DownloadToPathOutput)}
    (h : downloadToPath sha fs world destination = (result, fs')) :
    (fs' = fs ∧ ∀ output, result ≠ some (.ok output)) ∨
      ∃ response writer bytesWritten, world.response = some (.ok response) ∧
        (response.output world.idleTimeout world.deadline
          world.now).body.writeTo sha world.polls
          ⟨[], world.answers, world.flushes⟩ 0 =
            (some (.ok bytesWritten), writer) ∧
        result = some (.ok ⟨response.metadata, bytesWritten, destination⟩) ∧
        fs' = fs.write destination writer.content := by
  rw [downloadToPath] at h
  split at h
  · cases h
    exact Or.inl ⟨rfl, fun output => by simp⟩
  · cases h
    exact Or.inl ⟨rfl, fun output => by simp⟩
  · cases h
    exact Or.inl ⟨rfl, fun output => by simp⟩
  next path free htemporary =>
  simp only at h
  split at h
  · cases h
    exact Or.inl ⟨FileSystem.remove_write free _, fun output => by simp⟩
  split at h
  · cases h
    exact Or.inl ⟨FileSystem.remove_write free _, fun output => by simp⟩
  · cases h
    exact Or.inl ⟨FileSystem.remove_write free _, fun output => by simp⟩
  next response hresponse =>
  rw [FileSystem.write_write] at h
  split at h
  · cases h
    exact Or.inl ⟨FileSystem.remove_write free _, fun output => by simp⟩
  · cases h
    exact Or.inl ⟨FileSystem.remove_write free _, fun output => by simp⟩
  next bytesWritten hwritten =>
  split at h
  · cases h
    exact Or.inl ⟨FileSystem.remove_write free _, fun output => by simp⟩
  · cases h
    exact Or.inl ⟨FileSystem.remove_write free _, fun output => by simp⟩
  next hsynced =>
  rw [persistDownload] at h
  by_cases hpersists : world.persists = true
  · rw [if_pos hpersists] at h
    cases h
    refine Or.inr
      ⟨response, _, bytesWritten, hresponse, ?_, rfl,
        FileSystem.rename_write free _⟩
    rw [← hwritten]
  · rw [if_neg hpersists] at h
    cases h
    exact Or.inl ⟨FileSystem.remove_write free _, fun output => by simp⟩

/-- A download that succeeds has written exactly the bytes of a sound body. -/
theorem downloadToPath_ok {world : DownloadWorld fs}
    {output : DownloadToPathOutput}
    (h : downloadToPath sha fs world destination = (some (.ok output), fs')) :
    ∃ response, world.response = some (.ok response) ∧
      Sound sha response.contentLength response.expectedSha256 response.body ∧
      fs' = fs.write destination (bodyBytes response.body) ∧
      output =
        ⟨response.metadata, (bodyBytes response.body).length, destination⟩ := by
  rcases downloadToPath_cases h with ⟨-, hno⟩ |
    ⟨response, writer, n, hresponse, hwrite, hout, hfs⟩
  · exact absurd rfl (hno output)
  · have hfresh :
        Fresh response.contentLength response.expectedSha256 response.body
        (response.output world.idleTimeout world.deadline world.now).body :=
          fresh_withDeadline _ _ _
    have hinv :
        StreamInv sha response.contentLength response.expectedSha256
          response.body False []
        (response.output world.idleTimeout world.deadline world.now).body :=
          hfresh.inv
    obtain ⟨hsound, tail, hall, hcontent, hn⟩ := writeTo_ok hinv rfl hwrite
    rw [show yielded [] = [] from rfl, List.nil_append] at hall
    rw [List.nil_append] at hcontent
    rw [Nat.zero_add] at hn
    refine ⟨response, hresponse, hsound, ?_, ?_⟩
    · rw [hfs, hcontent, hall]
    · rw [Option.some.inj hout |> Except.ok.inj, hn, hall]

/-- **Downloads are verified.**  A stream keeps its contract over every body,
cut and polled in any way: what it yields is a prefix of the body within the
declared length, it ends cleanly exactly on a body that ended normally with the
declared bytes (unless a timer is due), and nothing follows an error or the end.
Writing a stream out that has yielded no error succeeds only on such a body, and
counts what it writes.  A download to a path that does not succeed changes no
file, and one that succeeds changes its destination only, to the bytes of such a
body. -/
theorem download_verified (sha : Sha256) :
    (∀ length digest events idleTimeout deadline now clocks,
      StreamContract sha length digest events clocks
        (ResponseStream.withDeadline events length digest idleTimeout deadline
          now)) ∧
    (∀ length events idleTimeout now clocks,
      StreamContract sha length none events clocks
        (ResponseStream.new events length idleTimeout now)) ∧
    (∀ length digest events b, Fresh length digest events b →
      ∀ earlier later w w' n,
      errors (ResponseStream.polls sha earlier b).1 = 0 →
      ResponseStream.writeTo sha later
        (ResponseStream.polls sha earlier b).2 w 0 =
        (some (.ok n), w') →
      Sound sha length digest events ∧
        ∃ tail, yielded (ResponseStream.polls sha earlier b).1 ++ tail =
          bodyBytes events ∧
          w'.content = w.content ++ tail ∧ n = tail.length) ∧
    (∀ fs (world : DownloadWorld fs) destination result fs',
      downloadToPath sha fs world destination = (result, fs') →
      ((∀ output, result ≠ some (.ok output)) → fs' = fs) ∧
      ∀ output, result = some (.ok output) →
        ∃ response, world.response = some (.ok response) ∧
          Sound sha response.contentLength response.expectedSha256
            response.body ∧
          fs' = fs.write destination (bodyBytes response.body) ∧
          output.bytesWritten = (bodyBytes response.body).length) := by
  refine ⟨?_, ?_, ?_, ?_⟩
  · intro length digest events idleTimeout deadline now clocks
    exact streamContract (fresh_withDeadline _ _ _) clocks
  · intro length events idleTimeout now clocks
    exact streamContract (fresh_new _ _) clocks
  · intro length digest events b hfresh earlier later w w' n hnone h
    have hinv :
        StreamInv sha length digest events False
          (ResponseStream.polls sha earlier b).1
        (ResponseStream.polls sha earlier b).2 :=
          (polls_stream_inv hfresh earlier).weaken False.elim
    obtain ⟨hsound, tail, hall, hcontent, hn⟩ := writeTo_ok hinv hnone h
    exact ⟨hsound, tail, hall, hcontent, hn.trans (Nat.zero_add _)⟩
  · intro fs world destination result fs' h
    constructor
    · intro hno
      rcases downloadToPath_cases h with ⟨hsame, -⟩ |
        ⟨response, writer, n, -, -, hout, -⟩
      · exact hsame
      · exact absurd hout (hno _)
    · rintro output rfl
      obtain ⟨response, hresponse, hsound, hfs, rfl⟩ := downloadToPath_ok h
      exact ⟨response, hresponse, hsound, hfs, rfl⟩

/-- One old file. -/
def oldFiles : FileSystem :=
  FileSystem.write (fun _ => none) "object".toList [111]

/-- An object of two bytes in two chunks, with a pause between them. -/
def twoByteResponse : ObjectResponse where
  metadata := ⟨none, 2, none, none, none, [], {}, ⟨none, none⟩⟩
  contentRange := none
  sha256 := none
  contentLength := some 2
  body := [.chunk [104], .pending, .chunk [105], .ended]

/-- A world in which everything succeeds, and no time passes. -/
def willingWorld : DownloadWorld oldFiles where
  parent := none
  temporary := fun _ => some (.created ".tmp".toList (by decide))
  clones := true
  response := some (.ok twoByteResponse)
  idleTimeout := 1
  deadline := 1
  now := 0
  polls := List.replicate 4 ⟨0, 0, 0⟩
  answers := []
  flushes := true
  syncs := some true
  persists := true

theorem download_verified_two_bytes :
    ∃ output fs',
      downloadToPath standardSha256 oldFiles willingWorld "object".toList =
        (some (.ok output), fs') ∧ output.bytesWritten = 2 ∧
      fs' = oldFiles.write "object".toList [104, 105] := by
  obtain ⟨output, fs', h⟩ : ∃ output fs',
      downloadToPath standardSha256 oldFiles willingWorld "object".toList =
          (some (.ok output), fs') :=
    ⟨_, _, rfl⟩
  obtain ⟨response, hresponse, -, hfs, hcount⟩ :=
    ((download_verified standardSha256).2.2.2 _ willingWorld _ _ _ h).2 output
      rfl
  cases hresponse
  exact ⟨output, fs', h, hcount, hfs⟩

/-! ## A body too long to be counted -/

/-- A body of 2^64 bytes, in chunks of at most 2^63 - 1. -/
def hugeBody : List DownloadEvent :=
  [.chunk (List.replicate (2 ^ 63 - 1) 0),
    .chunk (List.replicate (2 ^ 63 - 1) 0), .chunk [0, 0], .ended]

/-- A stream over it, with nothing declared. -/
def hugeStream : ResponseStream := ResponseStream.new hugeBody none 1 0

/-- A stream whose reader has seen its error. -/
def brokenStream : ResponseStream :=
  (ResponseStream.polls standardSha256 [⟨0, 0, 0⟩]
    (ResponseStream.new [.error (S3Error.integrity "interrupted")] none 1 0)).2

/-- Without a declared length a body that ends normally is refused when it
cannot be counted; and writing out a stream that has yielded its error writes
nothing, and reports no error a second time. -/
theorem download_counts_in_64_bits :
    (Verified standardSha256 none none hugeBody ∧
      ∀ k, Timely standardSha256 (List.replicate k ⟨0, 0, 0⟩) hugeStream ∧
        ¬ (.ready none ∈
          (ResponseStream.polls standardSha256
            (List.replicate k ⟨0, 0, 0⟩) hugeStream).1 ∧
          errors (ResponseStream.polls standardSha256
            (List.replicate k ⟨0, 0, 0⟩) hugeStream).1 = 0)) ∧
    (¬ Verified standardSha256 none none
      [.error (S3Error.integrity "interrupted")] ∧
      (ResponseStream.writeTo standardSha256 [⟨0, 0, 0⟩] brokenStream
        ⟨[], [], true⟩ 0).1 =
        some (.ok 0)) := by
  have hflow : ∀ e ∈ [DownloadEvent.chunk (List.replicate (2 ^ 63 - 1) 0),
      .chunk (List.replicate (2 ^ 63 - 1) 0), .chunk [0, 0]],
          e.flows = true := by
    intro e he
    simp only [List.mem_cons, List.not_mem_nil, or_false] at he
    rcases he with rfl | rfl | rfl <;> rfl
  have hdeclared : Declared standardSha256 none none (bodyBytes hugeBody) := by
    constructor
    · intro n hn
      cases hn
    · intro expected hexpected
      cases hexpected
  refine ⟨⟨⟨⟨_, [], rfl, hflow⟩, hdeclared⟩, fun k => ⟨?_, ?_⟩⟩, ?_, rfl⟩
  · exact timely_still (fun due hdue => by cases hdue) rfl rfl k
  · rintro ⟨hend, hnone⟩
    have hsmall := ((streamContract (fresh_new 1 0) _).ends hend hnone).1.2
    simp only [hugeBody, bodyBytes, List.length_append, List.length_replicate,
      List.length_cons,
      List.length_nil] at hsmall
    omega
  · intro hverified
    exact @not_endsNormally_of_error [] [] _ (List.forall_mem_nil _) hverified.1

end Download

end S3Wire
