import Tether.Proofs.Afc.Conversation

/-!
# Files through the service

A file server is a device that keeps files and answers the requests that open, read, write and
close them: a write goes over the content from the position on and moves the position behind it,
a read returns the bytes from the position on, up to the length that is asked for, and moves the
position behind them. How many bytes a read returns is left to the server, as long as there is
one where the file has one.

* `File.readPieces_eq`: the fuel for the unread bytes is enough;
* `FileServer.runs_write`, `FileServer.runs_readToEnd`: what is written and what is read;
* `FileServer.round_trip`: what is written to a file is what is read from it.
-/

namespace Tether.Afc

open Packet (bytesOf)

/-! ### Content of files -/

/-- Bytes written over content, from a position on. -/
def overwrite (content : Bytes) (position : ℕ) (bs : Bytes) : Bytes :=
  content.take position ++ bs ++ content.drop (position + bs.length)

variable {content : Bytes} {position : ℕ} {bs bs' : Bytes}

@[simp] theorem overwrite_nil (content : Bytes) (position : ℕ) :
    overwrite content position [] = content := by
  simp [overwrite]

theorem le_length_overwrite (h : position ≤ content.length) :
    position + bs.length ≤ (overwrite content position bs).length := by
  simp only [overwrite, List.length_append, List.length_take, List.length_drop]
  omega

/-- To write in pieces is to write at once. -/
theorem overwrite_overwrite (h : position ≤ content.length) :
    overwrite (overwrite content position bs) (position + bs.length) bs' =
      overwrite content position (bs ++ bs') := by
  have hfront : (content.take position ++ bs).length = position + bs.length := by
    simp [Nat.min_eq_left h]
  have htake : (overwrite content position bs).take (position + bs.length) =
      content.take position ++ bs := by
    rw [overwrite, List.take_left' hfront]
  have hdrop : (overwrite content position bs).drop (position + bs.length + bs'.length) =
      content.drop (position + (bs ++ bs').length) := by
    rw [overwrite, ← hfront, List.drop_length_add_append, List.drop_drop, hfront,
      List.length_append, Nat.add_assoc]
  rw [overwrite, htake, hdrop, overwrite, List.append_assoc (content.take position)]

theorem length_pieces {size : ℕ} (hsize : 0 < size) (bs : Bytes) :
    (pieces size bs).length = bs.length ⌈/⌉ size := by
  rw [Nat.ceilDiv_eq_add_pred_div]
  fun_induction pieces size bs with
  | case1 => exact (Nat.div_eq_of_lt (by simp; omega)).symm
  | case2 x xs ih =>
    rw [List.length_cons, ih, List.length_cons, List.length_drop]
    by_cases hlong : size - 1 ≤ xs.length
    · have hlength : xs.length - (size - 1) + size - 1 = xs.length := by omega
      have hsucc : xs.length + 1 + size - 1 = xs.length + size := by omega
      rw [hlength, hsucc, Nat.add_div_right _ hsize]
    · have hlength : xs.length - (size - 1) + size - 1 = size - 1 := by omega
      have hsucc : xs.length + 1 + size - 1 = xs.length + size := by omega
      rw [hlength, hsucc, Nat.add_div_right _ hsize, Nat.div_eq_of_lt (by omega),
        Nat.div_eq_of_lt (by omega)]

/-! ### Reading to the end -/

namespace File

variable {s : Client} {f : File} {fuel fuel' : ℕ}

theorem extends_read (f : File) (most : ℕ) : Call.Respects Client.Extends (f.read most) :=
  (Client.extends_request _ _ _).bind fun _ => .pure _

theorem extends_readPieces (f : File) (fuel : ℕ) :
    Call.Respects Client.Extends (f.readPieces fuel) := by
  induction fuel with
  | zero => exact .throw _
  | succ fuel ih =>
    unfold readPieces
    refine (f.extends_read _).bind fun piece => ?_
    split
    · exact .pure _
    · exact ih.bind fun _ => .pure _

theorem extends_readToEnd (f : File) : Call.Respects Client.Extends f.readToEnd :=
  Call.Respects.get.bind fun _ => f.extends_readPieces _

theorem extends_write (f : File) (bs : Bytes) : Call.Respects Client.Extends (f.write bs) :=
  .forM fun _ _ => (Client.extends_request _ _ _).bind fun _ => .pure _

theorem extends_track (f : Client → List UInt64) :
    Call.Respects Client.Extends
      (modifyThe Client fun client => { client with openFiles := f client } :
        Call DeviceError Client PUnit) :=
  .modify fun s => List.prefix_refl s.sent

theorem extends_openAt (path : String) (mode : OpenMode) :
    Call.Respects Client.Extends (openAt path mode) :=
  (Client.extends_request _ _ _).bind fun _ => (Call.Respects.ofExcept _).bind fun _ =>
    (extends_track _).bind fun _ => .pure _

theorem extends_close (f : File) : Call.Respects Client.Extends f.close :=
  (Client.extends_request _ _ _).attempt.bind fun _ => (extends_track _).bind fun _ =>
    (Call.Respects.ofExcept _).bind fun _ => .pure _

/-- Bytes are written to a file that is emptied for them, and read from it once it is opened
again. -/
def store (path : String) (mode mode' : OpenMode) (bs : Bytes) :
    Call DeviceError Client Bytes := do
  let f ← openAt path mode
  f.write bs
  f.close
  let g ← openAt path mode'
  g.readToEnd

/-- Each piece is a packet at least, so the fuel for the unread bytes is enough. -/
theorem readPieces_eq (hfuel : s.unread.length < headerLength * fuel) (hle : fuel ≤ fuel') :
    f.readPieces fuel s = f.readPieces fuel' s := by
  induction fuel generalizing s fuel' with
  | zero => exact absurd hfuel (Nat.not_lt_zero _)
  | succ fuel ih =>
    obtain ⟨fuel', rfl⟩ : ∃ n, fuel' = n + 1 := ⟨fuel' - 1, by omega⟩
    have hread := Client.ends_request_length .read
      (word f.descriptor ++ Bytes.ofNatLE 8 (min maxTransfer maxTransfer)) [] s
    simp only [readPieces, read, bind, EStateM.bind, pure, EStateM.pure]
    rw [Call.Ends] at hread
    cases hr : Client.request .read
      (word f.descriptor ++ Bytes.ofNatLE 8 (min maxTransfer maxTransfer)) [] s with
    | error halt t => rfl
    | ok p t =>
      rw [hr] at hread
      have hlength : t.unread.length + headerLength ≤ s.unread.length := hread
      have hrest : f.readPieces fuel t = f.readPieces fuel' t :=
        ih (by rw [Nat.mul_succ] at hfuel; omega) (by omega)
      dsimp only
      split
      · rfl
      · simp only [EStateM.bind, hrest]

end File

/-! ### File servers -/

/-- A device that keeps files. -/
structure FileServer extends Device where
  /-- Which file a descriptor is open on, and the position in it. -/
  opened : State → UInt64 → Option (String × ℕ)
  /-- What is in a file. -/
  stored : State → String → Option Bytes
  /-- The paths that the host may open. -/
  grants : String → Prop
  /-- A write goes over the content from the position on. -/
  write : ∀ {w : State} {q : Packet} {descriptor : UInt64} {path : String} {position : ℕ}
    {content : Bytes}, q.header.operation = .write → q.lead = File.word descriptor →
    opened w descriptor = some (path, position) → stored w path = some content →
    position ≤ content.length →
      Client.failureOf (answer w q).1 = .ok () ∧
        opened (answer w q).2 descriptor = some (path, position + q.content.length) ∧
        stored (answer w q).2 path = some (overwrite content position q.content)
  /-- A read returns bytes from the position on, one at least where there is any. -/
  read : ∀ {w : State} {q : Packet} {descriptor : UInt64} {length : ℕ} {path : String}
    {position : ℕ} {content : Bytes}, q.header.operation = .read →
    q.lead = File.word descriptor ++ Bytes.ofNatLE 8 length → length < 2 ^ 64 →
    opened w descriptor = some (path, position) → stored w path = some content →
    position ≤ content.length →
      Client.failureOf (answer w q).1 = .ok () ∧
        (∃ n ≤ length, (answer w q).1.content = (content.drop position).take n ∧
          (0 < length → position < content.length → 0 < n)) ∧
        opened (answer w q).2 descriptor =
          some (path, position + (answer w q).1.content.length) ∧
        stored (answer w q).2 path = some content
  /-- To open a file for writing empties it. -/
  truncate : ∀ {w : State} {q : Packet} {mode : OpenMode} {path : String},
    mode = .writeOnly ∨ mode = .truncate → q.header.operation = .fileOpen →
    q.lead = File.word mode.code ++ terminated [path] → grants path →
      Client.failureOf (answer w q).1 = .ok () ∧
        ∃ descriptor, (answer w q).1.leadNumber = .ok descriptor ∧
          opened (answer w q).2 descriptor = some (path, 0) ∧
          stored (answer w q).2 path = some []
  /-- To open a file for reading leaves it. -/
  reopen : ∀ {w : State} {q : Packet} {mode : OpenMode} {path : String} {content : Bytes},
    mode = .readOnly ∨ mode = .readWrite → q.header.operation = .fileOpen →
    q.lead = File.word mode.code ++ terminated [path] → grants path →
    stored w path = some content →
      Client.failureOf (answer w q).1 = .ok () ∧
        ∃ descriptor, (answer w q).1.leadNumber = .ok descriptor ∧
          opened (answer w q).2 descriptor = some (path, 0) ∧
          stored (answer w q).2 path = some content
  /-- To close a file leaves it. -/
  close : ∀ {w : State} {q : Packet} {descriptor : UInt64} {path : String} {position : ℕ}
    {content : Bytes}, q.header.operation = .fileClose → q.lead = File.word descriptor →
    opened w descriptor = some (path, position) → stored w path = some content →
      Client.failureOf (answer w q).1 = .ok () ∧ stored (answer w q).2 path = some content

namespace FileServer

variable {d : FileServer} {w : d.State} {f : File} {path : String}

/-- The requests that write pieces. -/
def writes (f : File) (ps : List Bytes) : List Ask :=
  ps.map fun piece => ⟨.write, File.word f.descriptor, piece⟩

/-- What these requests are and carry. -/
theorem numbered_writes (first : UInt64) (f : File) (ps : List Bytes) :
    (∀ q ∈ Ask.numbered first (writes f ps),
      q.header.operation = .write ∧ q.lead = File.word f.descriptor) ∧
    (Ask.numbered first (writes f ps)).flatMap Packet.content = ps.flatten := by
  induction ps generalizing first with
  | nil => simp [writes, Ask.numbered]
  | cons p ps ih =>
    obtain ⟨hrequests, hcontent⟩ := ih (first + 1)
    rw [writes] at hrequests hcontent
    simp only [writes, List.map_cons, Ask.numbered, List.mem_cons, forall_eq_or_imp,
      List.flatMap_cons, List.flatten_cons, hcontent]
    exact ⟨⟨⟨rfl, rfl⟩, hrequests⟩, rfl⟩

theorem length_word (n : UInt64) : (File.word n).length = 8 := by
  simp [File.word]

theorem runs_writePieces (first : UInt64) {ps : List Bytes} (hps : ∀ p ∈ ps, p.length ≤ maxTransfer)
    (hopened : d.opened w f.descriptor = some (path, position))
    (hstored : d.stored w path = some content) (hle : position ≤ content.length) :
    ∃ w', d.Runs w first
        (ps.forM fun piece => do
          let _ ← Client.request .write (File.word f.descriptor) piece)
        (writes f ps) ⟨⟩ w' ∧
      d.opened w' f.descriptor = some (path, position + ps.flatten.length) ∧
      d.stored w' path = some (overwrite content position ps.flatten) := by
  induction ps generalizing w first position content with
  | nil => exact ⟨w, .pure _, by simpa using hopened, by simpa using hstored⟩
  | cons p ps ih =>
    obtain ⟨hf, hopened', hstored'⟩ := d.write
      (q := .make .write first (File.word f.descriptor) p) rfl rfl hopened hstored hle
    have hfits : headerLength + (File.word f.descriptor).length + p.length < 2 ^ 64 := by
      have hp := hps p List.mem_cons_self
      simp only [headerLength, length_word, maxTransfer] at hp ⊢
      omega
    obtain ⟨w', hruns, hopened'', hstored''⟩ := ih (first + 1)
      (fun p hp => hps p (List.mem_cons_of_mem _ hp)) hopened' hstored' (le_length_overwrite hle)
    refine ⟨w', ((Device.Runs.request hfits hf).map fun _ => ()).bind hruns fun _ => ?_, ?_, ?_⟩
    · exact .forM fun _ _ => (Client.extends_request _ _ _).bind fun _ => .pure _
    · simpa [Packet.make, Nat.add_assoc] using hopened''
    · rw [hstored'']
      exact congrArg some (overwrite_overwrite hle)

theorem runs_write (first : UInt64) (bs : Bytes)
    (hopened : d.opened w f.descriptor = some (path, position)) (hstored : d.stored w path = some content)
    (hle : position ≤ content.length) :
    ∃ w', d.Runs w first (f.write bs) (writes f (pieces maxTransfer bs)) ⟨⟩ w' ∧
      d.opened w' f.descriptor = some (path, position + bs.length) ∧
      d.stored w' path = some (overwrite content position bs) := by
  have hpieces : ∀ p ∈ pieces maxTransfer bs, p.length ≤ maxTransfer :=
    fun p hp => length_le_of_mem_pieces (by decide) hp
  have h := runs_writePieces first hpieces hopened hstored hle
  rwa [flatten_pieces] at h

/-- What one read returns. -/
theorem runs_read (first : UInt64) (hopened : d.opened w f.descriptor = some (path, position))
    (hstored : d.stored w path = some content) (hle : position ≤ content.length) :
    ∃ ask n w', d.Runs w first (f.read maxTransfer) [ask] ((content.drop position).take n) w' ∧
      (position < content.length → 0 < n) ∧
      d.opened w' f.descriptor = some (path, position + ((content.drop position).take n).length) ∧
      d.stored w' path = some content := by
  obtain ⟨hf, ⟨n, -, hcontent, hpos⟩, hopened', hstored'⟩ := d.read
    (q := .make .read first (File.word f.descriptor ++ Bytes.ofNatLE 8 maxTransfer) []) rfl rfl
    (by decide) hopened hstored hle
  have hfits : headerLength + (File.word f.descriptor ++ Bytes.ofNatLE 8 maxTransfer).length +
      ([] : Bytes).length < 2 ^ 64 := by
    simp [headerLength, length_word]
  have hruns := (Device.Runs.request hfits hf).map Packet.content
  rw [hcontent] at hruns hopened'
  exact ⟨_, n, _, by simpa [File.read] using hruns, hpos (by decide), hopened', hstored'⟩

/-- The pieces up to the end of the file, and an empty one. -/
theorem runs_readPieces (first : UInt64)
    (hopened : d.opened w f.descriptor = some (path, position))
    (hstored : d.stored w path = some content) (hle : position ≤ content.length) :
    ∃ asks w', (∀ fuel, asks.length ≤ fuel →
        d.Runs w first (f.readPieces fuel) asks (content.drop position) w') ∧
      d.stored w' path = some content := by
  -- Each piece that is not empty leaves less of the file.
  induction hrest : content.length - position using Nat.strongRecOn
    generalizing w first position with
  | ind rest ih =>
    obtain ⟨ask, n, w', hread, hpos, hopened', hstored'⟩ :=
      runs_read first hopened hstored hle
    have hlength : ((content.drop position).take n).length = min n (content.length - position) := by
      rw [List.length_take, List.length_drop]
    by_cases hend : position < content.length
    · have hn := hpos hend
      obtain ⟨asks, w'', hruns, hstored''⟩ :=
        ih _ (by omega) (first + 1) hopened' hstored' (by omega) rfl
      refine ⟨ask :: asks, w'', fun fuel hfuel => ?_, hstored''⟩
      obtain ⟨fuel, rfl⟩ : ∃ n, fuel = n + 1 := ⟨fuel - 1, by simp at hfuel; omega⟩
      have hpiece : ¬ ((content.drop position).take n).isEmpty := by
        rw [List.isEmpty_iff, ← List.length_eq_zero_iff]
        omega
      have hjoin : (content.drop position).take n ++
          content.drop (position + ((content.drop position).take n).length) =
            content.drop position := by
        rw [← List.drop_drop]
        exact List.prefix_iff_eq_append.1 (List.take_prefix n _)
      have hbehind := (hruns fuel (by simpa using hfuel)).map ((content.drop position).take n ++ ·)
      rw [hjoin] at hbehind
      have hnext : d.Runs w' (first + 1)
          (if ((content.drop position).take n).isEmpty then pure []
            else do return (content.drop position).take n ++ (← f.readPieces fuel))
          asks (content.drop position) w'' := by
        rw [if_neg hpiece]
        exact hbehind
      refine hread.bind hnext fun piece => ?_
      · split
        · exact .pure _
        · exact (f.extends_readPieces _).bind fun _ => .pure _
    · refine ⟨[ask], w', fun fuel hfuel => ?_, hstored'⟩
      obtain ⟨fuel, rfl⟩ : ∃ n, fuel = n + 1 := ⟨fuel - 1, by simp at hfuel; omega⟩
      have hnil : content.drop position = [] := List.drop_eq_nil_of_le (by omega)
      rw [hnil, List.take_nil] at hread
      rw [hnil]
      have hnext : d.Runs w' (first + 1)
          (if ([] : Bytes).isEmpty then pure [] else do return [] ++ (← f.readPieces fuel))
          [] [] w' := .pure _
      refine hread.bind hnext fun piece => ?_
      split
      · exact .pure _
      · exact (f.extends_readPieces _).bind fun _ => .pure _

theorem runs_readToEnd (first : UInt64)
    (hopened : d.opened w f.descriptor = some (path, position))
    (hstored : d.stored w path = some content) (hle : position ≤ content.length) :
    ∃ asks w', d.Runs w first f.readToEnd asks (content.drop position) w' ∧
      d.stored w' path = some content := by
  obtain ⟨asks, w', hruns, hstored'⟩ := runs_readPieces (f := f) first hopened hstored hle
  obtain ⟨hdialogue, hfits, hafter⟩ := hruns asks.length (Nat.le_refl _)
  refine ⟨asks, w', ⟨.congr fun s => ?_, hfits, hafter⟩, hstored'⟩
  -- With more fuel it is the same, so it can be enough for the file.
  have hfuel : s.unread.length < headerLength * (s.unread.length / headerLength + 1) := by
    simp only [headerLength]
    omega
  exact ⟨_, File.readPieces_eq hfuel (Nat.le_max_right asks.length _),
    (hruns _ (Nat.le_max_left _ _)).dialogue⟩

theorem fits_open (mode : OpenMode) (hpath : (Bytes.ofString path).length < 2 ^ 63) :
    headerLength + (File.word mode.code ++ terminated [path]).length + ([] : Bytes).length <
      2 ^ 64 := by
  simp only [headerLength, terminated, List.flatMap_singleton, List.length_append, length_word,
    List.length_nil, List.length_singleton]
  omega

/-- To open a file returns the descriptor that the server gives. -/
theorem runs_openAt (first : UInt64) {mode : OpenMode} {descriptor : UInt64}
    (hpath : (Bytes.ofString path).length < 2 ^ 63)
    (hf : Client.failureOf (d.answer w (.make .fileOpen first
      (File.word mode.code ++ terminated [path]) [])).1 = .ok ())
    (hlead : (d.answer w (.make .fileOpen first
      (File.word mode.code ++ terminated [path]) [])).1.leadNumber = .ok descriptor) :
    d.Runs w first (File.openAt path mode)
      [⟨.fileOpen, File.word mode.code ++ terminated [path], []⟩] ⟨descriptor, path⟩
      (d.answer w (.make .fileOpen first (File.word mode.code ++ terminated [path]) [])).2 := by
  have hrequest := Device.Runs.request (fits_open mode hpath) hf
  exact hrequest.bind ((Device.Runs.ofExcept hlead).bind ((Device.Runs.modify _).bind (.pure _)
    fun _ => .pure _) fun _ => (File.extends_track _).bind fun _ => .pure _) fun _ =>
      (Call.Respects.ofExcept _).bind fun _ => (File.extends_track _).bind fun _ => .pure _

/-- To close a file returns nothing and leaves what is in it. -/
theorem runs_close (first : UInt64) (hopened : d.opened w f.descriptor = some (path, position))
    (hstored : d.stored w path = some content) :
    ∃ w', d.Runs w first f.close [⟨.fileClose, File.word f.descriptor, []⟩] () w' ∧
      d.stored w' path = some content := by
  obtain ⟨hf, hstored'⟩ := d.close (q := .make .fileClose first (File.word f.descriptor) [])
    rfl rfl hopened hstored
  have hfits : headerLength + (File.word f.descriptor).length + ([] : Bytes).length < 2 ^ 64 := by
    simp [headerLength, length_word]
  have hrequest := (Device.Runs.request hfits hf).attempt
  exact ⟨_, hrequest.bind ((Device.Runs.modify _).bind ((Device.Runs.ofExcept rfl).bind (.pure _)
    fun _ => .pure _) fun _ => (Call.Respects.ofExcept _).bind fun _ => .pure _) fun _ =>
      (File.extends_track _).bind fun _ => (Call.Respects.ofExcept _).bind fun _ => .pure _,
    hstored'⟩

/-- What is written to a file that is opened empty is what is read from it. -/
theorem runs_store (first : UInt64) {mode mode' : OpenMode} (bs : Bytes)
    (hpath : (Bytes.ofString path).length < 2 ^ 63) (hgrants : d.grants path)
    (hmode : mode = .writeOnly ∨ mode = .truncate)
    (hmode' : mode' = .readOnly ∨ mode' = .readWrite) :
    ∃ asks w', d.Runs w first (File.store path mode mode' bs) asks bs w' := by
  obtain ⟨hf, descriptor, hlead, hopened, hstored⟩ := d.truncate
    (q := .make .fileOpen first (File.word mode.code ++ terminated [path]) []) hmode rfl rfl hgrants
  have hopen := runs_openAt (d := d) (w := w) first hpath hf hlead
  obtain ⟨w₂, hwrite, hopened₂, hstored₂⟩ := runs_write (f := ⟨descriptor, path⟩) (first + 1) bs
    hopened hstored (Nat.le_refl _)
  obtain ⟨w₃, hclose, hstored₃⟩ := runs_close (f := ⟨descriptor, path⟩)
    (first + 1 + UInt64.ofNat (writes ⟨descriptor, path⟩ (pieces maxTransfer bs)).length)
    hopened₂ hstored₂
  obtain ⟨hf₄, descriptor', hlead₄, hopened₄, hstored₄⟩ := d.reopen
    (q := .make .fileOpen
      (first + 1 + UInt64.ofNat (writes ⟨descriptor, path⟩ (pieces maxTransfer bs)).length + 1)
      (File.word mode'.code ++ terminated [path]) []) hmode' rfl rfl hgrants hstored₃
  have hopen' := runs_openAt (d := d) (w := w₃) _ hpath hf₄ hlead₄
  obtain ⟨asks, w₅, hread, -⟩ := runs_readToEnd (f := ⟨descriptor', path⟩) _ hopened₄ hstored₄
    (Nat.zero_le _)
  have hcontent : (overwrite [] 0 bs).drop 0 = bs := by simp [overwrite]
  rw [hcontent] at hread
  -- Whatever these calls return, what follows them is said behind them.
  have hreopen : Call.Respects Client.Extends (File.openAt path mode' >>= File.readToEnd) :=
    (File.extends_openAt _ _).bind File.extends_readToEnd
  have hclosing (f : File) : Call.Respects Client.Extends
      (f.close >>= fun _ => File.openAt path mode' >>= File.readToEnd) :=
    f.extends_close.bind fun _ => hreopen
  have hwriting (f : File) : Call.Respects Client.Extends
      (f.write bs >>= fun _ => f.close >>= fun _ => File.openAt path mode' >>= File.readToEnd) :=
    (f.extends_write bs).bind fun _ => hclosing f
  exact ⟨_, _, hopen.bind (hwrite.bind (hclose.bind (hopen'.bind hread File.extends_readToEnd)
    fun _ => hreopen) fun _ => hclosing _) hwriting⟩

/-! ### A shelf of files -/

/-- The state of a simple file server. -/
structure Shelf where
  files : String → Option Bytes
  opened : UInt64 → Option (String × ℕ)
  /-- The descriptor of the next file that is opened. -/
  next : UInt64 := 1

namespace Shelf

/-- What is in an answer: its operation, what belongs to the operation, and content. -/
abbrev Answer := Operation × Bytes × Bytes

/-- The answer to a request that is done. -/
def done : Answer :=
  (.status, File.word 0, [])

/-- The path in a request to open a file. -/
def path? (q : Packet) : Option String :=
  Bytes.toString? (q.lead.drop 8).dropLast

/-- Does what a packet asks for. -/
def serve? (v : Shelf) (q : Packet) : Option (Answer × Shelf) := do
  let number ← q.leadNumber.toOption
  match q.header.operation with
  | .fileOpen =>
    let path ← path? q
    let content := if number = OpenMode.writeOnly.code ∨ number = OpenMode.truncate.code then
      some [] else v.files path
    some ((.fileOpenResult, File.word v.next, []),
      { files := Function.update v.files path content
        opened := Function.update v.opened v.next (some (path, 0)), next := v.next + 1 })
  | .write =>
    let (path, position) ← v.opened number
    let content ← v.files path
    some (done,
      { v with
        files := Function.update v.files path (some (overwrite content position q.content))
        opened := Function.update v.opened number (some (path, position + q.content.length)) })
  | .read =>
    let (path, position) ← v.opened number
    let content ← v.files path
    let piece := (content.drop position).take
      (min (Bytes.toNatLE ((q.lead.drop 8).take 8)) maxTransfer)
    some ((.data, [], piece),
      { v with opened := Function.update v.opened number (some (path, position + piece.length)) })
  | .fileClose => some (done, { v with opened := Function.update v.opened number none })
  | _ => none

/-- The packet with an answer, cut to a length that a client accepts. -/
def packet (number : UInt64) (answer : Answer) : Packet :=
  .make answer.1 number (answer.2.1.take 8) (answer.2.2.take maxTransfer)

/-- The answer to a packet. What cannot be done fails. -/
def answer (v : Shelf) (q : Packet) : Packet × Shelf :=
  match v.serve? q with
  | some (answer, v') => (packet q.header.number answer, v')
  | none => (packet q.header.number (.status, File.word 1, []), v)

theorem isReply_packet (number : UInt64) (answer : Answer) : (packet number answer).IsReply := by
  refine Packet.isReply_make ?_
  simp only [List.length_take, headerLength, maxTransfer, maxLength]
  omega

theorem leadNumber_of_eq {q : Packet} {n : UInt64} {rest : Bytes}
    (h : q.lead = File.word n ++ rest) : q.leadNumber = .ok n := by
  have hlength : ¬ q.lead.length < 8 := by simp [h, length_word]
  rw [Packet.leadNumber, if_neg hlength, h, List.take_left' (length_word n), File.word,
    Bytes.toNatLE_word]

theorem leadNumber_packet (number n : UInt64) (operation : Operation) (content : Bytes) :
    (packet number (operation, File.word n, content)).leadNumber = .ok n := by
  refine leadNumber_of_eq (Eq.trans ?_ (List.append_nil _).symm)
  exact List.take_of_length_le (by rw [length_word])

theorem path?_of_eq {q : Packet} {n : UInt64} {path : String}
    (h : q.lead = File.word n ++ terminated [path]) : path? q = some path := by
  rw [path?, h, List.drop_left' (length_word n), terminated, List.flatMap_singleton,
    List.dropLast_concat, Bytes.toString?_ofString]

theorem failureOf_done (number : UInt64) : Client.failureOf (packet number done) = .ok () :=
  rfl

theorem answer_of_serve? {v v' : Shelf} {q : Packet} {a : Answer}
    (h : v.serve? q = some (a, v')) : v.answer q = (packet q.header.number a, v') := by
  rw [answer, h]

end Shelf

/-- A shelf as a file server. -/
def shelf : FileServer where
  State := Shelf
  answer := Shelf.answer
  isReply v q := by
    unfold Shelf.answer
    split <;> exact Shelf.isReply_packet _ _
  opened := Shelf.opened
  stored := Shelf.files
  grants _ := True
  write {v q number path position content} hoperation hlead hopened hstored _ := by
    have hnumber := Shelf.leadNumber_of_eq (hlead.trans (List.append_nil _).symm)
    have hserve : v.serve? q = some (Shelf.done,
        { v with
          files := Function.update v.files path (some (overwrite content position q.content))
          opened := Function.update v.opened number
            (some (path, position + q.content.length)) }) := by
      simp [Shelf.serve?, hnumber, hoperation, hopened, hstored, Except.toOption]
    rw [Shelf.answer_of_serve? hserve]
    exact ⟨Shelf.failureOf_done _, by simp, by simp⟩
  read {v q number length path position content} hoperation hlead hlength hopened hstored _ := by
    have hnumber := Shelf.leadNumber_of_eq hlead
    have hmost : Bytes.toNatLE ((q.lead.drop 8).take 8) = length := by
      rw [hlead, List.drop_left' (length_word number), List.take_of_length_le (by simp),
        Bytes.toNatLE_ofNatLE, Nat.mod_eq_of_lt (by simpa using hlength)]
    have hserve : v.serve? q = some
        ((.data, [], (content.drop position).take (min length maxTransfer)),
          { v with
            opened := Function.update v.opened number (some (path,
              position + ((content.drop position).take (min length maxTransfer)).length)) }) := by
      simp [Shelf.serve?, hnumber, hoperation, hopened, hstored, Except.toOption, hmost]
    have hpiece : ((content.drop position).take (min length maxTransfer)).take maxTransfer =
        (content.drop position).take (min length maxTransfer) :=
      List.take_of_length_le (by rw [List.length_take]; omega)
    rw [Shelf.answer_of_serve? hserve]
    refine ⟨rfl, ⟨min length maxTransfer, Nat.min_le_left _ _, hpiece, fun hpos _ => ?_⟩, ?_, hstored⟩
    · exact Nat.lt_min.2 ⟨hpos, by decide⟩
    · simp [Shelf.packet, Packet.make, hpiece]
  truncate {v q mode path} hmode hoperation hlead _ := by
    have hnumber := Shelf.leadNumber_of_eq hlead
    have hpath := Shelf.path?_of_eq hlead
    have htruncates : mode.code = OpenMode.writeOnly.code ∨ mode.code = OpenMode.truncate.code :=
      hmode.imp (congrArg _) (congrArg _)
    have hserve : v.serve? q = some ((.fileOpenResult, File.word v.next, []),
        { files := Function.update v.files path (some [])
          opened := Function.update v.opened v.next (some (path, 0)), next := v.next + 1 }) := by
      simp [Shelf.serve?, hnumber, hoperation, hpath, htruncates, Except.toOption]
    rw [Shelf.answer_of_serve? hserve]
    exact ⟨rfl, v.next, Shelf.leadNumber_packet _ _ _ _, by simp, by simp⟩
  reopen {v q mode path content} hmode hoperation hlead _ hstored := by
    have hnumber := Shelf.leadNumber_of_eq hlead
    have hpath := Shelf.path?_of_eq hlead
    have hkeeps : ¬ (mode.code = OpenMode.writeOnly.code ∨ mode.code = OpenMode.truncate.code) := by
      rcases hmode with rfl | rfl <;> decide
    have hserve : v.serve? q = some ((.fileOpenResult, File.word v.next, []),
        { files := Function.update v.files path (some content)
          opened := Function.update v.opened v.next (some (path, 0)), next := v.next + 1 }) := by
      simp [Shelf.serve?, hnumber, hoperation, hpath, hkeeps, hstored, Except.toOption]
    rw [Shelf.answer_of_serve? hserve]
    exact ⟨rfl, v.next, Shelf.leadNumber_packet _ _ _ _, by simp, by simp⟩
  close {v q number path position content} hoperation hlead _ hstored := by
    have hnumber := Shelf.leadNumber_of_eq (hlead.trans (List.append_nil _).symm)
    have hserve : v.serve? q = some (Shelf.done,
        { v with opened := Function.update v.opened number none }) := by
      simp [Shelf.serve?, hnumber, hoperation, Except.toOption]
    rw [Shelf.answer_of_serve? hserve]
    exact ⟨Shelf.failureOf_done _, hstored⟩

/-- Writing and reading in the one conversation that they have with a file server. -/
theorem round_trip (d : FileServer) (w : d.State) {s : Client} (hs : s.Ready)
    (hunread : s.unread = []) (bs : Bytes) :
    (∀ (f : File) (path : String) (position : ℕ) (content : Bytes),
      d.opened w f.descriptor = some (path, position) → d.stored w path = some content →
      position ≤ content.length →
        d.Leads w (f.write bs) s (fun _ qs w' =>
          qs.length = bs.length ⌈/⌉ maxTransfer ∧
          (∀ q ∈ qs, q.header.operation = .write ∧ q.lead = File.word f.descriptor) ∧
          qs.flatMap Packet.content = bs ∧
          d.stored w' path =
            some (content.take position ++ bs ++ content.drop (position + bs.length)) ∧
          d.opened w' f.descriptor = some (path, position + bs.length)) ∧
        d.Leads w f.readToEnd s (fun read _ w' =>
          read = content.drop position ∧ d.stored w' path = some content)) ∧
    ∀ (path : String) (mode mode' : OpenMode), (Bytes.ofString path).length < 2 ^ 63 →
      d.grants path → mode = .writeOnly ∨ mode = .truncate →
      mode' = .readOnly ∨ mode' = .readWrite →
        d.Leads w (File.store path mode mode' bs) s (fun read _ _ => read = bs) := by
  refine ⟨fun f path position content hopened hstored hle => ⟨?_, ?_⟩,
    fun path mode mode' hpath hgrants hmode hmode' => ?_⟩
  · obtain ⟨w', hruns, hopened', hstored'⟩ := runs_write s.nextNumber bs hopened hstored hle
    obtain ⟨hrequests, hcontent⟩ := numbered_writes s.nextNumber f (pieces maxTransfer bs)
    refine hruns.leads hs hunread ⟨?_, hrequests, ?_, hstored', hopened'⟩
    · rw [Ask.length_numbered, writes, List.length_map, length_pieces (by decide)]
    · rw [hcontent, flatten_pieces]
  · obtain ⟨asks, w', hruns, hstored'⟩ := runs_readToEnd (f := f) s.nextNumber hopened hstored hle
    exact hruns.leads hs hunread ⟨rfl, hstored'⟩
  · obtain ⟨asks, w', hruns⟩ := runs_store (w := w) s.nextNumber bs hpath hgrants hmode hmode'
    exact hruns.leads hs hunread rfl

/-- A shelf with a file that is open. -/
def holding : Shelf where
  files := Function.update (fun _ => none) "/f" (some [1, 2, 3])
  opened := Function.update (fun _ => none) 7 (some ("/f", 1))

theorem round_trip_holding :
    shelf.Leads holding (File.write ⟨7, "/f"⟩ [8, 9]) Client.quiet (fun _ qs w' =>
      qs.length = 1 ∧
      (∀ q ∈ qs, q.header.operation = .write ∧ q.lead = File.word 7) ∧
      qs.flatMap Packet.content = [8, 9] ∧
      shelf.stored w' "/f" = some [1, 8, 9] ∧ shelf.opened w' 7 = some ("/f", 3)) ∧
    shelf.Leads holding (File.readToEnd ⟨7, "/f"⟩) Client.quiet (fun read _ w' =>
      read = [2, 3] ∧ shelf.stored w' "/f" = some [1, 2, 3]) ∧
    shelf.Leads holding (File.store "/g" .writeOnly .readOnly [8, 9]) Client.quiet
      (fun read _ _ => read = [8, 9]) := by
  obtain ⟨hopen, hstore⟩ := round_trip shelf holding Client.ready_quiet rfl [8, 9]
  obtain ⟨hwrite, hread⟩ := hopen ⟨7, "/f"⟩ "/f" 1 [1, 2, 3] rfl rfl (by decide)
  exact ⟨hwrite, hread, hstore "/g" .writeOnly .readOnly (by decide +kernel) trivial (.inl rfl)
    (.inl rfl)⟩

end FileServer

end Tether.Afc
