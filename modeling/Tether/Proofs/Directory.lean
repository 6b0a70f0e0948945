import Tether.Directory
import Tether.Proofs.Entries
import Tether.Proofs.Xpc.Closure

/-!
# What a directory lists

A directory is read from an object that has all of its own data, and from no other. Of the services
in it just those are listed that have an entitlement and a port, each with what its own dictionary
says. A service that lacks one of them is left out and does no harm to the others: what is found
under a name depends on nothing but the object under this name.

* `Entry.ofXpc?_eq_some_iff`, `Entry.exists_ofXpc?_iff`: which objects are read as an entry, and
  as which;
* `get?_entriesOf`: entries are read on their own;
* `lists_exactly`: which objects are directories, and what they list.
-/

namespace Tether

/-! ### Objects of one kind -/

namespace Xpc.Object

variable {o : Object}

theorem asDictionary?_eq_some_iff {entries : Entries Object} :
    o.asDictionary? = some entries ↔ o = .dictionary entries := by
  cases o <;> simp [asDictionary?]

theorem asArray?_eq_some_iff {items : List Object} :
    o.asArray? = some items ↔ o = .array items := by
  cases o <;> simp [asArray?]

theorem asString?_eq_some_iff {text : String} : o.asString? = some text ↔ o = .string text := by
  cases o <;> simp [asString?]

theorem asBool?_eq_some_iff {value : Bool} : o.asBool? = some value ↔ o = .bool value := by
  cases o <;> simp [asBool?]

end Xpc.Object

namespace Directory

variable {o : Xpc.Object} {d : Directory} {services : Entries Xpc.Object} {name : String}

/-! ### Entries -/

namespace Entry

variable {service : Entries Xpc.Object} {e e' : Entry} {key : String}

/-- The dictionary of a service has this property. -/
def HasProperty (service : Entries Xpc.Object) (key : String) (o : Xpc.Object) : Prop :=
  ∃ properties, service.get? "Properties" = some (.dictionary properties) ∧
    Entries.get? properties key = some o

/-- The dictionary of a service has an entitlement, and a number that is a port, however it is
written. -/
structure IsComplete (service : Entries Xpc.Object) : Prop where
  entitlement : ∃ text, service.get? "Entitlement" = some (.string text)
  port : ∃ o n, service.get? "Port" = some o ∧ o.asUnsigned? = some n ∧ n.toNat ≤ 65535

/-- The entry says what the dictionary of the service says. -/
structure Describes (e : Entry) (service : Entries Xpc.Object) : Prop where
  entitlement : service.get? "Entitlement" = some (.string e.entitlement)
  port : ∃ o n, service.get? "Port" = some o ∧ o.asUnsigned? = some n ∧ n.toNat = e.port.toNat
  usesRemoteXpc : e.usesRemoteXpc = true ↔ HasProperty service "UsesRemoteXPC" (.bool true)
  features : ∀ names, e.features = some names ↔
    ∃ items, HasProperty service "Features" (.array items) ∧
      names = items.filterMap Xpc.Object.asString?
  serviceVersion : ∀ n, e.serviceVersion = some n ↔
    ∃ o, HasProperty service "ServiceVersion" o ∧ o.asSigned? = some n

theorem Describes.isComplete (h : e.Describes service) : IsComplete service := by
  obtain ⟨o, n, ho, hn, hport⟩ := h.port
  have hlt := e.port.toNat_lt
  exact ⟨⟨_, h.entitlement⟩, o, n, ho, hn, by omega⟩

/-- A dictionary describes one entry only. -/
theorem Describes.eq (h : e.Describes service) (h' : e'.Describes service) : e = e' := by
  have hentitlement : e.entitlement = e'.entitlement := by
    simpa using h.entitlement.symm.trans h'.entitlement
  have hport : e.port = e'.port := by
    obtain ⟨o, n, ho, hn, hport⟩ := h.port
    obtain ⟨o', n', ho', hn', hport'⟩ := h'.port
    obtain rfl := Option.some.inj (ho.symm.trans ho')
    obtain rfl := Option.some.inj (hn.symm.trans hn')
    exact UInt16.toNat_inj.1 (hport.symm.trans hport')
  have hremote : e.usesRemoteXpc = e'.usesRemoteXpc :=
    Bool.eq_iff_iff.2 (h.usesRemoteXpc.trans h'.usesRemoteXpc.symm)
  have hfeatures : e.features = e'.features :=
    Option.ext fun names => (h.features names).trans (h'.features names).symm
  have hversion : e.serviceVersion = e'.serviceVersion :=
    Option.ext fun n => (h.serviceVersion n).trans (h'.serviceVersion n).symm
  cases e
  cases e'
  simp only at hentitlement hport hremote hfeatures hversion
  rw [hentitlement, hport, hremote, hfeatures, hversion]

theorem property?_eq_some_iff : property? service key = some o ↔ HasProperty service key o := by
  simp only [property?, HasProperty, Option.bind_eq_some_iff,
    Xpc.Object.asDictionary?_eq_some_iff]
  constructor
  · rintro ⟨properties, ⟨_, h, rfl⟩, ho⟩
    exact ⟨properties, h, ho⟩
  · rintro ⟨properties, h, ho⟩
    exact ⟨properties, ⟨_, h, rfl⟩, ho⟩

theorem portOf?_eq_some_iff {port : UInt16} :
    portOf? o = some port ↔ ∃ n, o.asUnsigned? = some n ∧ n.toNat = port.toNat := by
  simp only [portOf?, Option.map_eq_some_iff, Option.filter_eq_some_iff, decide_eq_true_eq]
  constructor
  · rintro ⟨n, ⟨hn, hlt⟩, rfl⟩
    exact ⟨n, hn, by rw [UInt16.toNat_ofNat', Nat.mod_eq_of_lt hlt]⟩
  · rintro ⟨n, hn, hport⟩
    have hlt := port.toNat_lt
    exact ⟨n, ⟨hn, by omega⟩, by rw [hport, UInt16.ofNat_toNat]⟩

/-- The entry that is made of a complete dictionary describes it. -/
theorem exists_describes (h : IsComplete service) :
    ∃ e, ofXpc? (.dictionary service) = some e ∧ e.Describes service := by
  obtain ⟨⟨text, htext⟩, o, n, ho, hn, hle⟩ := h
  have hport : portOf? o = some (UInt16.ofNat n.toNat) :=
    portOf?_eq_some_iff.2 ⟨n, hn, by rw [UInt16.toNat_ofNat', Nat.mod_eq_of_lt (by omega)]⟩
  have hread : ofXpc? (.dictionary service) = some
      { entitlement := text
        port := UInt16.ofNat n.toNat
        usesRemoteXpc := ((property? service "UsesRemoteXPC").bind Xpc.Object.asBool?).getD false
        features := ((property? service "Features").bind Xpc.Object.asArray?).map
          fun items => items.filterMap Xpc.Object.asString?
        serviceVersion := (property? service "ServiceVersion").bind Xpc.Object.asSigned? } := by
    simp only [ofXpc?, Xpc.Object.asDictionary?, htext, ho, hport, Xpc.Object.asString?,
      Option.bind_some, Option.bind_eq_bind, Option.pure_def]
  refine ⟨_, hread, htext, ?_, ?_, fun names => ?_, fun version => ?_⟩
  · exact ⟨o, n, ho, hn, by rw [UInt16.toNat_ofNat', Nat.mod_eq_of_lt (by omega)]⟩
  · rw [Option.getD_eq_iff]
    simp only [Option.bind_eq_some_iff, Xpc.Object.asBool?_eq_some_iff, property?_eq_some_iff,
      Bool.false_eq_true, and_false, or_false, exists_eq_right]
  · simp only [Option.map_eq_some_iff, Option.bind_eq_some_iff, Xpc.Object.asArray?_eq_some_iff,
      property?_eq_some_iff]
    constructor
    · rintro ⟨items, ⟨_, h, rfl⟩, rfl⟩
      exact ⟨items, h, rfl⟩
    · rintro ⟨items, h, rfl⟩
      exact ⟨items, ⟨_, h, rfl⟩, rfl⟩
  · simp only [Option.bind_eq_some_iff, property?_eq_some_iff]

/-- An object is read as the entry that its dictionary describes. -/
theorem ofXpc?_eq_some_iff :
    ofXpc? o = some e ↔ ∃ service, o = .dictionary service ∧ e.Describes service := by
  constructor
  · intro h
    have hread := h
    simp only [ofXpc?, Option.bind_eq_bind, Option.bind_eq_some_iff,
      Xpc.Object.asDictionary?_eq_some_iff, Xpc.Object.asString?_eq_some_iff] at h
    obtain ⟨service, rfl, text, ⟨_, htext, rfl⟩, port, ⟨v, hv, hport⟩, -⟩ := h
    obtain ⟨n, hn, hnport⟩ := portOf?_eq_some_iff.1 hport
    have hlt := port.toNat_lt
    obtain ⟨e', he', hdescribes⟩ := exists_describes ⟨⟨_, htext⟩, v, n, hv, hn, by omega⟩
    obtain rfl := Option.some.inj (hread.symm.trans he')
    exact ⟨service, rfl, hdescribes⟩
  · rintro ⟨service, rfl, h⟩
    obtain ⟨e', he', hdescribes⟩ := exists_describes h.isComplete
    rw [he', hdescribes.eq h]

/-- The objects that are read as an entry are the complete dictionaries. -/
theorem exists_ofXpc?_iff :
    (∃ e, ofXpc? o = some e) ↔ ∃ service, o = .dictionary service ∧ IsComplete service := by
  constructor
  · rintro ⟨e, he⟩
    obtain ⟨service, rfl, h⟩ := ofXpc?_eq_some_iff.1 he
    exact ⟨service, rfl, h.isComplete⟩
  · rintro ⟨service, rfl, h⟩
    obtain ⟨e, he, -⟩ := exists_describes h
    exact ⟨e, he⟩

end Entry

/-- What cannot be read is left out. -/
theorem entriesOf_cons_of_none (k : String) (services : Entries Xpc.Object)
    (h : Entry.ofXpc? o = none) : entriesOf ((k, o) :: services) = entriesOf services := by
  simp [entriesOf, h]

theorem entriesOf_cons_of_some {e : Entry} (k : String) (services : Entries Xpc.Object)
    (h : Entry.ofXpc? o = some e) :
    entriesOf ((k, o) :: services) = (k, e) :: entriesOf services := by
  simp [entriesOf, h]

/-- Entries are read on their own: under a name there is what is made of the object under it. -/
theorem get?_entriesOf (h : (Entries.keys services).Nodup) :
    (entriesOf services).get? name = (services.get? name).bind Entry.ofXpc? := by
  induction services with
  | nil => rfl
  | cons p services ih =>
    obtain ⟨k, o⟩ := p
    obtain ⟨hnew, hrest⟩ := List.nodup_cons.1 h
    have ih := ih hrest
    rw [Entries.get?_cons]
    cases ho : Entry.ofXpc? o with
    | none =>
      rw [entriesOf_cons_of_none k services ho, ih]
      by_cases hname : name = k
      · -- There is no other entry of this name that could be taken for the one left out.
        subst hname
        rw [if_pos rfl, Entries.get?_of_notMem hnew, Option.bind_some, ho, Option.bind_none]
      · rw [if_neg hname]
    | some e =>
      rw [entriesOf_cons_of_some k services ho, Entries.get?_cons, ih]
      by_cases hname : name = k
      · rw [if_pos hname, if_pos hname, Option.bind_some, ho]
      · rw [if_neg hname, if_neg hname]

/-! ### Directories -/

/-- The object is a dictionary with these services in it. -/
def Offers (o : Xpc.Object) (services : Entries Xpc.Object) : Prop :=
  ∃ entries, o = .dictionary entries ∧
    Entries.get? entries "Services" = some (.dictionary services)

/-- The dictionary has all the data of a directory. -/
structure IsWhole (entries : Entries Xpc.Object) : Prop where
  services : ∃ services, entries.get? "Services" = some (.dictionary services)
  protocolVersion : ∃ v n,
    entries.get? "MessagingProtocolVersion" = some v ∧ v.asUnsigned? = some n
  uuid : ∃ text, entries.get? "UUID" = some (.string text)
  properties : ∃ properties, entries.get? "Properties" = some (.dictionary properties)

theorem Offers.eq {services' : Entries Xpc.Object} (h : Offers o services)
    (h' : Offers o services') : services = services' := by
  obtain ⟨entries, rfl, hservices⟩ := h
  obtain ⟨_, ⟨⟩, hservices'⟩ := h'
  simpa using hservices.symm.trans hservices'

/-- No name comes twice in what was received. -/
theorem nodup_of_decode {bs : Bytes} (ho : Xpc.decode bs = .ok o) (h : Offers o services) :
    (Entries.keys services).Nodup := by
  obtain ⟨entries, rfl, hservices⟩ := h
  cases Xpc.fits_of_decode ho with
  | dictionary _ hkeys _ hvalues =>
    cases hvalues _ ((Entries.get?_eq_some_iff hkeys).1 hservices) with
    | dictionary _ hnames => exact hnames

/-- The objects that are read as a directory. -/
theorem exists_ofXpc?_iff :
    (∃ d, ofXpc? o = some d) ↔ ∃ entries, o = .dictionary entries ∧ IsWhole entries := by
  simp only [ofXpc?, Option.bind_eq_bind, Option.bind_eq_some_iff, Option.pure_def,
    Xpc.Object.asDictionary?_eq_some_iff, Xpc.Object.asString?_eq_some_iff]
  constructor
  · rintro ⟨-, entries, rfl, services, ⟨_, hservices, rfl⟩, n, ⟨v, hv, hn⟩, text, ⟨_, htext, rfl⟩,
      properties, ⟨_, hproperties, rfl⟩, -⟩
    exact ⟨entries, rfl, ⟨services, hservices⟩, ⟨v, n, hv, hn⟩, ⟨text, htext⟩,
      ⟨properties, hproperties⟩⟩
  · rintro ⟨entries, rfl, ⟨services, hservices⟩, ⟨v, n, hv, hn⟩, ⟨text, htext⟩,
      ⟨properties, hproperties⟩⟩
    exact ⟨_, entries, rfl, services, ⟨_, hservices, rfl⟩, n, ⟨v, hv, hn⟩, text, ⟨_, htext, rfl⟩,
      properties, ⟨_, hproperties, rfl⟩, rfl⟩

/-- A directory has the entries that can be read of the services that it was made of. -/
theorem services_of_ofXpc? (h : ofXpc? o = some d) :
    ∃ services, Offers o services ∧ d.services = entriesOf services := by
  simp only [ofXpc?, Option.bind_eq_bind, Option.bind_eq_some_iff, Option.pure_def,
    Xpc.Object.asDictionary?_eq_some_iff] at h
  obtain ⟨entries, rfl, services, ⟨_, hservices, rfl⟩, _, -, _, -, _, -, h⟩ := h
  obtain rfl := Option.some.inj h
  exact ⟨services, ⟨entries, rfl, hservices⟩, rfl⟩

/-- What is found under a name is the entry that is listed under it. -/
theorem find_eq_ok_iff {e : Entry} : d.find name = .ok e ↔ d.services.get? name = some e := by
  rw [find]
  cases d.services.get? name with
  | none => simp
  | some e' => simp

theorem lists_iff_exists_find : d.lists name ↔ ∃ e, d.find name = .ok e := by
  simp only [lists, Option.isSome_iff_exists, find_eq_ok_iff]

/-- What is found under a name depends on nothing but the object under the name. -/
theorem find_eq_ok_iff_bind {e : Entry} (h : ofXpc? o = some d) (hoffers : Offers o services)
    (hnames : (Entries.keys services).Nodup) :
    d.find name = .ok e ↔ (services.get? name).bind Entry.ofXpc? = some e := by
  obtain ⟨services', hoffers', hservices⟩ := services_of_ofXpc? h
  obtain rfl := hoffers.eq hoffers'
  rw [find_eq_ok_iff, hservices, get?_entriesOf hnames]

/-- An object is read as a directory if it is a dictionary that has all the data of one. The
directory lists the services that have an entitlement and a port, and finds of each what its
dictionary says. Another directory that has the same under a name finds the same there, whatever
its other services are and in whatever order they come. -/
theorem lists_exactly (o : Xpc.Object)
    (hnames : ∀ services, Offers o services → (Entries.keys services).Nodup) :
    ((∃ d, ofXpc? o = some d) ↔ ∃ entries, o = .dictionary entries ∧ IsWhole entries) ∧
    ∀ d, ofXpc? o = some d → ∃ services, Offers o services ∧ ∀ name,
      (d.lists name ↔ ∃ e, d.find name = .ok e) ∧
      (d.lists name ↔
        ∃ service, services.get? name = some (.dictionary service) ∧ Entry.IsComplete service) ∧
      (∀ e, d.find name = .ok e ↔
        ∃ service, services.get? name = some (.dictionary service) ∧ e.Describes service) ∧
      ∀ o' d' services', ofXpc? o' = some d' → Offers o' services' →
        (Entries.keys services').Nodup → services'.get? name = services.get? name →
          d'.lists name = d.lists name ∧ ∀ e, d'.find name = .ok e ↔ d.find name = .ok e := by
  refine ⟨exists_ofXpc?_iff, fun d hd => ?_⟩
  obtain ⟨services, hoffers, -⟩ := services_of_ofXpc? hd
  refine ⟨services, hoffers, fun name => ?_⟩
  have hfind (e : Entry) :
      d.find name = .ok e ↔ (services.get? name).bind Entry.ofXpc? = some e :=
    find_eq_ok_iff_bind hd hoffers (hnames services hoffers)
  refine ⟨lists_iff_exists_find, ?_, fun e => ?_,
    fun o' d' services' hd' hoffers' hnames' hsame => ?_⟩
  · simp only [lists_iff_exists_find, hfind, Option.bind_eq_some_iff]
    constructor
    · rintro ⟨e, v, hv, he⟩
      obtain ⟨service, rfl, h⟩ := Entry.exists_ofXpc?_iff.1 ⟨e, he⟩
      exact ⟨service, hv, h⟩
    · rintro ⟨service, hservice, h⟩
      obtain ⟨e, he⟩ := Entry.exists_ofXpc?_iff.2 ⟨service, rfl, h⟩
      exact ⟨e, _, hservice, he⟩
  · simp only [hfind, Option.bind_eq_some_iff, Entry.ofXpc?_eq_some_iff]
    constructor
    · rintro ⟨_, hservice, service, rfl, h⟩
      exact ⟨service, hservice, h⟩
    · rintro ⟨service, hservice, h⟩
      exact ⟨_, hservice, service, rfl, h⟩
  · have hagree (e : Entry) : d'.find name = .ok e ↔ d.find name = .ok e := by
      rw [find_eq_ok_iff_bind hd' hoffers' hnames', hsame, hfind]
    exact ⟨Bool.eq_iff_iff.2 (by simp only [lists_iff_exists_find, hagree]), hagree⟩

/-- A service whose port is written in this way. -/
def wareAt (port : String) : Xpc.Object :=
  .dictionary [("Port", .string port), ("Entitlement", .string "reading"),
    ("Properties", .dictionary [("Features", .array [.string "a", .uint64 1]),
      ("ServiceVersion", .string "-2"), ("UsesRemoteXPC", .bool true)])]

/-- A directory with these services. -/
def offering (services : List (String × Xpc.Object)) : Xpc.Object :=
  .dictionary [("Services", .dictionary services), ("Properties", .dictionary []),
    ("MessagingProtocolVersion", .string "+3"), ("UUID", .string "")]

theorem offers_offering (services : List (String × Xpc.Object)) :
    Offers (offering services) services :=
  ⟨_, rfl, rfl⟩

theorem exists_offering (services : List (String × Xpc.Object)) :
    ∃ d, ofXpc? (offering services) = some d :=
  exists_ofXpc?_iff.2
    ⟨_, rfl, ⟨_, rfl⟩, ⟨.string "+3", 3, rfl, by rfl⟩, ⟨_, rfl⟩, ⟨_, rfl⟩⟩

/-- A number that is no port, the last port, and no dictionary. -/
def wares : List (String × Xpc.Object) :=
  [("high", wareAt "65536"), ("last", wareAt "65535"), ("flat", .bool true)]

/-- One of these services, behind another one. -/
def fewer : List (String × Xpc.Object) :=
  [("first", wareAt "0"), ("last", wareAt "65535")]

set_option maxRecDepth 8000 in
theorem decode_wares : Xpc.decode (Xpc.encode (offering wares)) = .ok (offering wares) := by
  rfl

theorem lists_exactly_wares :
    Xpc.decode (Xpc.encode (offering wares)) = .ok (offering wares) ∧
    ∃ d d', ofXpc? (offering wares) = some d ∧ ofXpc? (offering fewer) = some d' ∧
      d.find "last" = .ok ⟨"reading", 65535, true, some ["a"], some (-2)⟩ ∧
      ¬ d.lists "high" ∧ ¬ d.lists "flat" ∧ d'.lists "last" = d.lists "last" := by
  obtain ⟨d, hd⟩ := exists_offering wares
  obtain ⟨d', hd'⟩ := exists_offering fewer
  obtain ⟨services, hoffers, hlists⟩ := (lists_exactly (offering wares) fun _ h =>
    nodup_of_decode decode_wares h).2 d hd
  obtain rfl := hoffers.eq (offers_offering wares)
  obtain ⟨-, -, hlast, hsame⟩ := hlists "last"
  refine ⟨decode_wares, d, d', hd, hd', (hlast _).2 ?_, fun hhigh => ?_, fun hflat => ?_,
    (hsame _ d' fewer hd' (offers_offering fewer) (by decide) rfl).1⟩
  · obtain ⟨service, hservice, h⟩ := Entry.ofXpc?_eq_some_iff.1
      (by rfl : Entry.ofXpc? (wareAt "65535") =
        some ⟨"reading", 65535, true, some ["a"], some (-2)⟩)
    exact ⟨service, congrArg some hservice, h⟩
  · obtain ⟨service, hservice, h⟩ := (hlists "high").2.1.1 hhigh
    obtain ⟨e, he⟩ := Entry.exists_ofXpc?_iff.2 ⟨service, rfl, h⟩
    rw [← Option.some.inj hservice] at he
    exact absurd (he.symm.trans (by rfl : Entry.ofXpc? (wareAt "65536") = none)) (by simp)
  · obtain ⟨service, hservice, -⟩ := (hlists "flat").2.1.1 hflat
    cases hservice

end Directory

end Tether
