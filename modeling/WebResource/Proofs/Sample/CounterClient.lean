import WebResource.Proofs.Client.Transparency
import WebResource.Proofs.Sample.Counter

namespace WebResource.Sample.Counter

/-!
# Counters over the wire

A client of counters stands for the counters in memory that a resource serves at its base URL.
-/

/-! ## Identifiers in URLs -/

theorem isUnreserved_intChars {i : Int} {c : Char} (hc : c ∈ Json.intChars i) :
    c.toNat < 0x80 ∧ Percent.isUnreserved (UInt8.ofNat c.toNat) = true := by
  have hall : ∀ n < 58, 48 ≤ n → Percent.isUnreserved (UInt8.ofNat n) = true := by decide
  rcases IntRange.mem_intChars hc with rfl | hdigit
  · decide
  · rw [Char.isDigit, Bool.and_eq_true, decide_eq_true_eq, decide_eq_true_eq] at hdigit
    have hlow : 48 ≤ c.toNat := hdigit.1
    have hhigh : c.toNat ≤ 57 := hdigit.2
    exact ⟨by omega, hall c.toNat (by omega) hlow⟩

theorem encodeSegment_intChars (i : Int) :
    Percent.encodeSegment (String.ofList (Json.intChars i)) = String.ofList (Json.intChars i) := by
  apply Percent.encodeSegment_of_unreserved
  rw [String.toList_ofList]
  exact fun c hc => isUnreserved_intChars hc

/-- The URL of a counter is longer than that of the collection by a slash and 20 characters at most. -/
theorem utf8ByteSize_url_le {i : Int} (h : IntRange.i64.holds i = true) (base : String) :
    (Text.dropEnd '/' base ++ "/" ++ Percent.encodeSegment (String.ofList (Json.intChars i))).utf8ByteSize ≤
      base.utf8ByteSize + 21 := by
  obtain ⟨slashes, hbase⟩ := Text.exists_dropEnd_append '/' base
  have hsize : base.utf8ByteSize = (Text.dropEnd '/' base).utf8ByteSize + slashes.utf8ByteSize := by
    rw [← String.utf8ByteSize_append, hbase]
  have htext : (String.ofList (Json.intChars i)).utf8ByteSize = (Json.intChars i).length := by
    rw [Utf8.utf8ByteSize_ascii, String.toList_ofList]
    rw [String.toList_ofList]
    exact fun c hc => (isUnreserved_intChars hc).1
  have hslash : "/".utf8ByteSize = 1 := rfl
  have hlength := IntRange.length_intChars_le h
  rw [encodeSegment_intChars, String.utf8ByteSize_append, String.utf8ByteSize_append, htext, hslash]
  omega

/-! ## Clients -/

/-- Counters whose new identifiers come from a sequence. -/
def numbered (next : Nat → Int) : Identity Counter Int := { identity with fresh := next }

theorem portable {next : Nat → Int} (hnext : ∀ n, IntRange.i64.holds (next n) = true) {base : String}
    (hroom : base.utf8ByteSize + 21 ≤ Uri.maxLength) :
    Client.Portable (numbered next) (.signed .i64 "i64") base Fits
      (fun i => IntRange.i64.holds i = true) where
  carries e he := carries he
  returns e he := returns he
  getField e he := getField_id he
  setField e i he hid := setField_id he hid
  id e i he hid := he.id i hid
  setId e n he := by
    refine ⟨?_, he.count⟩
    rintro i ⟨⟩
    exact hnext n
  format i hi := by
    have hread := IntRange.read_intChars hi
    have hne {s : String} (hs : ∃ x, IntRange.i64.read s = .error x) :
        String.ofList (Json.intChars i) ≠ s := by
      rintro rfl
      obtain ⟨x, hx⟩ := hs
      rw [hread] at hx
      cases hx
    refine ⟨String.ofList (Json.intChars i), congrArg Except.ok (IntRange.toString_eq_intChars i), ?_,
      hne ⟨_, rfl⟩, hne ⟨_, rfl⟩, hne ⟨_, rfl⟩, Nat.le_trans (utf8ByteSize_url_le hi base) hroom⟩
    simp only [IdFormat.signed, hread]

/-- A client for counters of which only the base URL, the media type and the way to read lists are
chosen. -/
def client (baseUrl mediaType : String) (buffered : Bool) (t : Routes (Memory Counter))
    (root : NodeId) : Client (Memory Counter) Counter Int :=
  { (Client.new baseUrl (.ofHandler (.ofRouter root) t) .identity (.byField "id")
      (.signed .i64 "i64")).withMediaType mediaType with disableStreaming := buffered }

/-- In a context, the base URL of a client leads to a handler of a router, and leaves room for the
identifier of a counter. -/
def Reaches (baseUrl : String) (c : Context) (t : Routes (Memory Counter)) (root : NodeId)
    (h : Handler (Memory Counter)) : Prop :=
  ∃ base path, Client.expandPattern baseUrl c = .ok base ∧ Client.BasedAt base path ∧
    base.utf8ByteSize + 21 ≤ Uri.maxLength ∧ t.Serves root path h

variable {next : Nat → Int} {codec : Codec} {mediaType baseUrl : String} {t : Routes (Memory Counter)}
  {root : NodeId} {limit : Nat} {c : Context}

theorem linked (hspoken : Spoken mediaType codec) (buffered : Bool) {base : String}
    {path : List String} (hbase : Client.expandPattern baseUrl c = .ok base)
    (hpath : Client.BasedAt base path)
    (hserves : t.Serves root path
      (Resource.stored (numbered next) (.signed .i64 "i64") limit).handler) :
    Client.Linked (client baseUrl mediaType buffered t root) (numbered next) limit c codec base path where
  spoken := by
    have hmedia : (client baseUrl mediaType buffered t root).mediaType = mediaType :=
      hspoken.known.canonical_eq
    rw [hmedia]
    exact hspoken
  codecs := rfl
  mappings := rfl
  idLens := rfl
  contextHook := rfl
  collectionUrl := hbase
  basedAt := hpath
  transport := ⟨t, root, rfl, hserves⟩

/-- A client of counters gives what the counters in memory give, for every run of operations in
contexts that are not done, and leaves the same counters behind. -/
theorem outcome_sendAll_client (hspoken : Spoken mediaType codec) (buffered : Bool)
    (hnext : ∀ n, IntRange.i64.holds (next n) = true) {w : Timed (Memory Counter)}
    (hsound : Client.Sound Fits w.inner) {calls : List (Context × Client.Op Counter Int)}
    (hcalls : ∀ p ∈ calls, p.1.err w.time = none ∧
      Reaches baseUrl p.1 t root (Resource.stored (numbered next) (.signed .i64 "i64") limit).handler ∧
      p.2.Admissible (numbered next) Fits (fun i => IntRange.i64.holds i = true) codec limit) :
    Act.outcome (Client.sendAll (client baseUrl mediaType buffered t root) calls) w =
      (.ok (Client.applyAll (numbered next) (.signed .i64 "i64") w.inner (calls.map (·.2))).1,
        { w with
          inner := (Client.applyAll (numbered next) (.signed .i64 "i64") w.inner
            (calls.map (·.2))).2 }) := by
  have hlinked : ∀ p ∈ calls, p.1.err w.time = none ∧
      p.2.Admissible (numbered next) Fits (fun i => IntRange.i64.holds i = true) codec limit ∧
      ∃ base path,
        Client.Linked (client baseUrl mediaType buffered t root) (numbered next) limit p.1 codec base path ∧
        Client.Portable (numbered next) (.signed .i64 "i64") base Fits
          (fun i => IntRange.i64.holds i = true) := by
    intro p hp
    obtain ⟨hlive, ⟨base, path, hbase, hpath, hroom, hserves⟩, hop⟩ := hcalls p hp
    exact ⟨hlive, hop, base, path, linked hspoken buffered hbase hpath hserves, portable hnext hroom⟩
  exact Client.outcome_sendAll hsound hlinked

/-- Counters at `/counters`: one is created, changed and listed, and another one is missed. -/
theorem outcome_sendAll_client_tea :
    let next (n : Nat) : Int := (10 * n % 1000 : Nat)
    let server : Routes (Memory Counter) := ((Trie.empty.addNode.2 : Routes (Memory Counter)).mount 0
      "/counters" (Resource.stored (numbered next) (.signed .i64 "i64") 1000).handler).2
    let tea : Counter := ⟨some 10, "tea", -4, true⟩
    let calls : List (Context × Client.Op Counter Int) :=
      [(.background, .create { tea with id := none }), (.background, .findById 10),
        (.background, .update { tea with name := "té" }), (.background, .create tea),
        (.background, .deleteById 7), (.background, .findAll 5)]
    Act.outcome (Client.sendAll (client "/counters" Media.json false server 0) calls)
      ⟨.start, [], .empty⟩ =
        (.ok [.created (.ok tea), .found (.ok (some tea)), .done (.ok ()),
          .created (.error (.alreadyExists "Entity already exists")), .done (.error (.notFound "7")),
          .listed [.ok { tea with name := "té" }]],
        ⟨.start, [], ⟨[{ tea with name := "té" }], 2, 0, none⟩⟩) := by
  intro next server tea calls
  have hnext (n : Nat) : IntRange.i64.holds (next n) = true := by
    have hdepth : (IntRange.i64.depth : Int) = 9223372036854775808 := rfl
    have hmax : (IntRange.i64.max : Int) = 9223372036854775807 := rfl
    rw [IntRange.holds, Bool.and_eq_true, decide_eq_true_eq, decide_eq_true_eq, hdepth, hmax]
    simp only [next]
    omega
  have hreaches : Reaches "/counters" .background server 0
      (Resource.stored (numbered next) (.signed .i64 "i64") 1000).handler := by
    have hpath : Path.segments "/counters" = ["counters"] := by decide
    have hslash : Text.dropEnd '/' "/counters" ++ "/" = "/counters/" := by decide
    have hbelow : Path.segments "/counters/" = ["counters"] := by decide
    have hchars : "/counters".toList = ['/', 'c', 'o', 'u', 'n', 't', 'e', 'r', 's'] := rfl
    refine ⟨"/counters", ["counters"], rfl, ⟨?_, ⟨_, rfl, hpath⟩, ?_⟩, (by decide), ?_⟩
    · simp [hchars, Uri.IsPathPart]
    · rw [hslash]
      exact ⟨⟨none, none, "/counters/", none⟩, rfl, hbelow⟩
    · refine Trie.serves_mount Nat.zero_lt_one rfl "/counters" _ ?_
      rw [hpath]
      exact .cons (Trie.takes_refl _) .nil
  have hfits (e : Counter) (he : e.id = none ∨ e.id = some 10) (hcount : e.count = -4) : e.Fits := by
    refine ⟨fun i hi => ?_, hcount ▸ rfl⟩
    rcases he with he | he <;> rw [he] at hi <;> cases hi
    rfl
  have hbounded (e : Counter) (he : (Document.toJson e).render.length ≤ 1000) :
      Client.Bounded .json 1000 e := by
    rintro body ⟨⟩
    exact he
  have hcalls : ∀ p ∈ calls, p.1.err Timeline.start = none ∧
      Reaches "/counters" p.1 server 0
        (Resource.stored (numbered next) (.signed .i64 "i64") 1000).handler ∧
      p.2.Admissible (numbered next) Fits (fun i => IntRange.i64.holds i = true) .json 1000 := by
    intro p hp
    simp only [calls, List.mem_cons, List.not_mem_nil, or_false] at hp
    rcases hp with rfl | rfl | rfl | rfl | rfl | rfl
    · exact ⟨rfl, hreaches, hfits _ (Or.inl rfl) rfl, hbounded _ (by decide +kernel)⟩
    · exact ⟨rfl, hreaches, rfl⟩
    · exact ⟨rfl, hreaches, hfits _ (Or.inr rfl) rfl, rfl, hbounded _ (by decide +kernel)⟩
    · exact ⟨rfl, hreaches, hfits _ (Or.inr rfl) rfl, hbounded _ (by decide +kernel)⟩
    · exact ⟨rfl, hreaches, rfl⟩
    · exact ⟨rfl, hreaches, rfl⟩
  have hrun := outcome_sendAll_client (w := ⟨.start, [], .empty⟩) .json false hnext
    (Client.sound_empty Fits) hcalls
  exact hrun

end WebResource.Sample.Counter
