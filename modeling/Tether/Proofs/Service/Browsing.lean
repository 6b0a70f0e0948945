import Tether.Proofs.Service.Messages
import Tether.Service.Apps

/-!
# Listing the apps

The apps of a device come in several reports, each with a part of the list, and the last one says
that it is complete. The parts are put together as long as each report has one. A report without a
part ends the list where it stands, whether it is the last one or not: the parts behind it are
missing, and the reports behind it stay unread, for the next command to take them for its own.

* `errorIn?`, `IsFinal`, `listIn?`: what a report says;
* `browse_until_partless`: what the list comes to.
-/

namespace Tether.Apps

open Connection (Message framed)

/-! ## What a report says -/

/-- The error that a report tells, by its name or in words. -/
def errorIn? (d : Plist.Dictionary) : Option DeviceError :=
  match d.get? "Error", d.get? "ErrorDescription" with
  | some (.string name), _ => some (.ofReport name ((d.get? "DetailedError").bind Plist.asString?))
  | _, some (.string text) => some (.installationFailed text)
  | _, _ => none

/-- The report says that it is the last one. -/
def IsFinal (d : Plist.Dictionary) : Prop :=
  d.get? "Status" = some (.string "Complete")

/-- The part of the list that a report has. -/
def listIn? (d : Plist.Dictionary) : Option (List Plist) :=
  match d.get? "CurrentList" with
  | some (.array apps) => some apps
  | _ => none

theorem errorIn?_eq (d : Plist.Dictionary) :
    errorIn? d = (Connection.reportedError? d).or (describedFailure? d) := by
  unfold errorIn? Connection.reportedError? describedFailure? Connection.textAt?
  rcases d.get? "Error" with _ | v <;> rcases d.get? "ErrorDescription" with _ | w
  · rfl
  · cases w <;> rfl
  · cases v <;> rfl
  · cases v <;> cases w <;> rfl

theorem isComplete_iff {d : Plist.Dictionary} : isComplete d ↔ IsFinal d := by
  unfold isComplete IsFinal Connection.textAt?
  rcases d.get? "Status" with _ | v
  · simp
  · cases v <;> simp [Plist.asString?]

instance instDecidablePredIsFinal : DecidablePred IsFinal :=
  fun _ => decidable_of_iff _ isComplete_iff

theorem listIn?_eq (d : Plist.Dictionary) :
    (d.get? "CurrentList").bind Plist.asArray? = listIn? d := by
  unfold listIn?
  rcases d.get? "CurrentList" with _ | v
  · rfl
  · cases v <;> rfl

/-! ## Putting the list together -/

variable {m : Message} {ms : List Message} {rest : Bytes} {c s : Connection}

/-- A report without an error is received. -/
theorem receive_of_sound (ho : c.isOpen) (h : c.transport.unread = m.toBytes ++ rest)
    (hsound : errorIn? m.content = none) :
    describedFailure? m.content = none ∧
      ∃ reads, Connection.receive c = .ok m.content (c.left rest reads) := by
  rw [errorIn?_eq, Option.or_eq_none_iff] at hsound
  refine ⟨hsound.2, ?_⟩
  have hends := (Connection.ends_receive ho h).and (Call.ends_self Connection.receive c)
  unfold Call.Ends at hends
  split at hends
  · obtain ⟨⟨rfl, -, reads, rfl⟩, heq⟩ := hends
    exact ⟨reads, heq⟩
  · obtain ⟨⟨⟨e, he, -⟩, -⟩, -⟩ := hends
    simp [hsound.1] at he

/-- A report without a part ends the list. -/
theorem collect_of_partless (fuel : Nat) (apps : List Plist) (ho : c.isOpen)
    (h : c.transport.unread = m.toBytes ++ rest) (hsound : errorIn? m.content = none)
    (hpart : listIn? m.content = none) :
    ∃ reads, collect (fuel + 1) apps c = .ok apps (c.left rest reads) := by
  obtain ⟨hwords, reads, hr⟩ := receive_of_sound ho h hsound
  refine ⟨reads, ?_⟩
  simp only [collect, bind, EStateM.bind, hr, hwords, listIn?_eq, hpart, pure, EStateM.pure]

/-- A report with a part adds it, and ends the list if it is the last one. -/
theorem collect_of_part (fuel : Nat) (apps : List Plist) {part : List Plist} (ho : c.isOpen)
    (h : c.transport.unread = m.toBytes ++ rest) (hsound : errorIn? m.content = none)
    (hpart : listIn? m.content = some part) :
    ∃ reads, collect (fuel + 1) apps c =
      (if IsFinal m.content then pure (apps ++ part) else collect fuel (apps ++ part))
        (c.left rest reads) := by
  obtain ⟨hwords, reads, hr⟩ := receive_of_sound ho h hsound
  refine ⟨reads, ?_⟩
  simp only [collect, bind, EStateM.bind, hr, hwords, listIn?_eq, hpart, isComplete_iff]

/-- The parts of the list that reports have, put together. -/
def partsOf (ms : List Message) : List Plist :=
  ms.flatMap fun m => (listIn? m.content).getD []

/-- The list goes on behind a report. -/
structure GoesOn (d : Plist.Dictionary) : Prop where
  sound : errorIn? d = none
  going : ¬ IsFinal d
  part : (listIn? d).isSome

/-- As long as the list goes on, the parts are put together. -/
theorem collect_add (fuel : Nat) (apps : List Plist) (ho : c.isOpen)
    (h : c.transport.unread = Message.bytesOf ms ++ rest) (hms : ∀ m ∈ ms, GoesOn m.content) :
    ∃ reads, collect (fuel + ms.length) apps c =
      collect fuel (apps ++ partsOf ms) (c.left rest reads) := by
  induction ms generalizing apps c with
  | nil =>
    refine ⟨c.transport.reads, ?_⟩
    obtain rfl : c.transport.unread = rest := h
    rw [partsOf, List.flatMap_nil, List.append_nil]
    rfl
  | cons m ms ih =>
    have hm := hms m List.mem_cons_self
    rw [Message.bytesOf_cons, List.append_assoc] at h
    obtain ⟨part, hpart⟩ := Option.isSome_iff_exists.1 hm.part
    obtain ⟨reads, hr⟩ := collect_of_part (fuel + ms.length) apps ho h hm.sound hpart
    rw [if_neg hm.going] at hr
    obtain ⟨reads', hr'⟩ := ih (c := c.left (Message.bytesOf ms ++ rest) reads) (apps ++ part) ho rfl
      fun m' hm' => hms m' (List.mem_cons_of_mem _ hm')
    refine ⟨reads', ?_⟩
    rw [List.length_cons, ← Nat.add_assoc, hr, hr', List.append_assoc, partsOf, partsOf,
      List.flatMap_cons, hpart]
    rfl

/-- The report that ends the list adds its part, if it has one. -/
theorem collect_end (fuel : Nat) (apps : List Plist) (ho : c.isOpen)
    (h : c.transport.unread = m.toBytes ++ rest) (hsound : errorIn? m.content = none)
    (hend : IsFinal m.content ∨ listIn? m.content = none) :
    ∃ reads, collect (fuel + 1) apps c =
      .ok (apps ++ (listIn? m.content).getD []) (c.left rest reads) := by
  cases hpart : listIn? m.content with
  | none => simpa using collect_of_partless fuel apps ho h hsound hpart
  | some part =>
    obtain ⟨reads, hr⟩ := collect_of_part fuel apps ho h hsound hpart
    rw [if_pos (hend.resolve_right (by simp [hpart]))] at hr
    exact ⟨reads, hr⟩

/-- The list ends with the first report that is the last one or has no part. -/
theorem ends_browse (options : Option Plist)
    (h : s.transport.unread = Message.bytesOf ms ++ (m.toBytes ++ rest))
    (hms : ∀ m ∈ ms, GoesOn m.content) (hsound : errorIn? m.content = none)
    (hend : IsFinal m.content ∨ listIn? m.content = none) :
    (browse options).Ends s
      (fun apps t => apps = partsOf (ms ++ [m]) ∧ t.transport.unread = rest ∧ t.isOpen ∧
        t.transport.sent = s.transport.sent ++ framed (command "Browse" options))
      (fun halt t => Connection.send (.dictionary (command "Browse" options)) s = .error halt t) := by
  rw [browse, Call.ends_bind]
  refine ((Connection.ends_send _ s).and (Call.ends_self _ s)).mono ?_ fun _ _ h => h.2
  rintro _ u ⟨⟨ho, -, hsent, hunread⟩, -⟩
  rw [Call.ends_bind, Call.ends_get, hunread]
  have hfuel : ms.length < s.transport.unread.length := by
    have hms := Message.length_le_length_bytesOf ms
    have hm := m.four_le_length_toBytes
    rw [h, List.length_append, List.length_append]
    omega
  obtain ⟨fuel, hfuel⟩ := Nat.exists_eq_add_of_le (Nat.le_of_lt hfuel)
  obtain ⟨reads, hr⟩ := collect_add (fuel + 1) [] ho (hunread.trans h) hms
  obtain ⟨reads', hr'⟩ := collect_end (c := u.left (m.toBytes ++ rest) reads) fuel
    ([] ++ partsOf ms) ho rfl hsound hend
  rw [hfuel, Nat.add_comm ms.length, Nat.add_right_comm, Call.Ends, hr, hr']
  refine ⟨?_, rfl, ho, hsent⟩
  simp [partsOf]

/-- For reports without an error, of which the last one and no other says that it is the last: if
each report before it has a part, all parts are returned, and nothing is read beyond the last one.
Otherwise only the parts in front of the first report without one are returned, and what comes
behind that report stays unread. -/
theorem browse_until_partless (options : Option Plist)
    (h : s.transport.unread = Message.bytesOf (ms ++ [m]) ++ rest)
    (hsound : ∀ m' ∈ ms ++ [m], errorIn? m'.content = none)
    (hgoing : ∀ m' ∈ ms, ¬ IsFinal m'.content) (hfinal : IsFinal m.content) :
    (browse options).Ends s
      (fun apps t => t.isOpen ∧
        t.transport.sent = s.transport.sent ++ framed (command "Browse" options) ∧
        ((∀ m' ∈ ms, (listIn? m'.content).isSome) →
          apps = partsOf (ms ++ [m]) ∧ t.transport.unread = rest) ∧
        ∀ front m' back, ms = front ++ m' :: back → (∀ m ∈ front, (listIn? m.content).isSome) →
          listIn? m'.content = none →
          apps = partsOf front ∧ t.transport.unread = Message.bytesOf (back ++ [m]) ++ rest)
      (fun halt t => Connection.send (.dictionary (command "Browse" options)) s = .error halt t) := by
  have hwhole (hparts : ∀ m' ∈ ms, (listIn? m'.content).isSome) := by
    have hunread : s.transport.unread = Message.bytesOf ms ++ (m.toBytes ++ rest) := by simp [h]
    exact ends_browse options hunread
      (fun m' hm' => ⟨hsound m' (List.mem_append_left _ hm'), hgoing m' hm', hparts m' hm'⟩)
      (hsound m List.mem_concat_self) (.inl hfinal)
  have hfront (front : List Message) (m' : Message) (back : List Message)
      (hsplit : ms = front ++ m' :: back) (hparts : ∀ m ∈ front, (listIn? m.content).isSome)
      (hnone : listIn? m'.content = none) := by
    have hunread : s.transport.unread = Message.bytesOf front ++
        (m'.toBytes ++ (Message.bytesOf (back ++ [m]) ++ rest)) := by simp [h, hsplit]
    exact ends_browse options hunread
      (fun x hx => ⟨hsound x (by simp [hsplit, hx]), hgoing x (by simp [hsplit, hx]), hparts x hx⟩)
      (hsound m' (by simp [hsplit])) (.inr hnone)
  -- One of the two is the case, and whichever it is, the request is sent.
  have hsent : (browse options).Ends s
      (fun _ t => t.isOpen ∧
        t.transport.sent = s.transport.sent ++ framed (command "Browse" options))
      (fun halt t => Connection.send (.dictionary (command "Browse" options)) s = .error halt t) := by
    cases hfind : ms.find? fun m => (listIn? m.content).isNone with
    | none =>
      rw [List.find?_eq_none] at hfind
      exact (hwhole fun m' hm' => by simpa [Option.isSome_iff_ne_none] using hfind m' hm').mono
        (fun _ _ h => h.2.2) fun _ _ h => h
    | some m' =>
      obtain ⟨hnone, front, back, hsplit, hparts⟩ := List.find?_eq_some_iff_append.1 hfind
      exact (hfront front m' back hsplit
        (fun x hx => by simpa [Option.isSome_iff_ne_none] using hparts x hx)
        (by simpa using hnone)).mono (fun _ _ h => h.2.2) fun _ _ h => h
  refine ((hsent.and (Call.Ends.imp hwhole)).and (.forall fun front => .forall fun m' =>
    .forall fun back => .imp fun hsplit => .imp fun hparts => .imp fun hnone =>
      hfront front m' back hsplit hparts hnone)).mono ?_ ?_
  · rintro apps t ⟨⟨⟨ho, hsent⟩, hwhole⟩, hfront⟩
    refine ⟨ho, hsent, fun hparts => ?_, fun front m' back hsplit hparts hnone => ?_⟩
    · obtain ⟨happs, hunread, -⟩ := hwhole hparts
      exact ⟨happs, hunread⟩
    · obtain ⟨happs, hunread, -⟩ := hfront front m' back hsplit hparts hnone
      refine ⟨?_, hunread⟩
      simpa [partsOf, hnone] using happs
  · rintro halt t ⟨⟨h, -⟩, -⟩
    exact h

/-- A report that has no part of the list. -/
def searching : Message where
  body := Bytes.ofString "<plist><dict><key>Status</key><string>Browsing</string></dict></plist>"
  content := [("Status", .string "Browsing")]
  reads := by cbv
  short := by cbv

set_option maxRecDepth 20000 in
/-- The last report, with all apps that there are. -/
def found : Message where
  body := Bytes.ofString ("<plist><dict><key>CurrentList</key><array><string>a</string></array>" ++
    "<key>Status</key><string>Complete</string></dict></plist>")
  content := [("CurrentList", .array [.string "a"]), ("Status", .string "Complete")]
  reads := by cbv
  short := by cbv

/-- A connection on which both have arrived. -/
def pausing : Connection :=
  { transport := { unread := Message.bytesOf [searching, found] }, label := "" }

/-- Requests can be written there. -/
theorem send_pausing (halt : Halt DeviceError) (t : Connection) :
    Connection.send (.dictionary (command "Browse" none)) pausing ≠ .error halt t := by
  intro h
  have hends : (Connection.send (.dictionary (command "Browse" none))).Ends pausing
    (fun _ _ => True) (fun _ _ => False) := trivial
  rwa [Call.Ends, h] at hends

theorem browse_until_partless_pausing :
    (browse none).Ends pausing
      (fun apps t => apps = [] ∧ t.transport.unread = found.toBytes) (fun _ _ => False) := by
  have hunread : pausing.transport.unread = Message.bytesOf ([searching] ++ [found]) ++ [] := by
    rw [List.append_nil]
    rfl
  have hsend := send_pausing
  -- The connection is not to be looked into from here on.
  generalize pausing = s at hunread hsend ⊢
  refine (browse_until_partless none hunread ?_ ?_ ?_).mono ?_ ?_
  · exact List.forall_mem_cons.2 ⟨rfl, List.forall_mem_singleton.2 rfl⟩
  · exact List.forall_mem_singleton.2 (by decide)
  · rfl
  · intro apps t h
    have hpart := h.2.2.2 [] searching [] rfl (List.forall_mem_nil _) rfl
    exact ⟨hpart.1, by rw [hpart.2]; simp⟩
  · exact hsend

/-- No report has an error and only the last one says that it is the last, and yet neither are all
parts returned nor all reports read. -/
theorem not_collected_pausing :
    (∀ m ∈ [searching, found], errorIn? m.content = none) ∧ ¬ IsFinal searching.content ∧
      IsFinal found.content ∧
      (browse none).Ends pausing
        (fun apps t => apps ≠ partsOf [searching, found] ∧ t.transport.unread ≠ [])
        (fun _ _ => False) := by
  refine ⟨?_, by decide, rfl, ?_⟩
  · exact List.forall_mem_cons.2 ⟨rfl, List.forall_mem_singleton.2 rfl⟩
  · have hunread : pausing.transport.unread =
        Message.bytesOf [] ++ (searching.toBytes ++ found.toBytes) := by
      rw [pausing, Message.bytesOf_cons, Message.bytesOf_cons, Message.bytesOf_nil, List.append_nil]
      rfl
    have hsend := send_pausing
    generalize pausing = s at hunread hsend ⊢
    refine (ends_browse none hunread (List.forall_mem_nil _) rfl (.inr rfl)).mono ?_ ?_
    · intro apps t h
      refine ⟨h.1.trans_ne ?_, h.2.1.trans_ne ?_⟩
      · simp [partsOf, listIn?, searching, found, Entries.get?]
      exact List.ne_nil_of_length_pos (Nat.lt_of_lt_of_le (by decide) found.four_le_length_toBytes)
    · exact hsend

end Tether.Apps
