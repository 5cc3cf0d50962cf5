import BuildPlan.Notification
import BuildPlan.Proofs.Text.Separator

/-!
# Mail addresses and the requests of a mail relay

An address is two parts with an at sign between them, over the whole of its text.  It can be told by cutting
the text at its at signs, as `isAddress` does, and by searching the text for a pattern that is tied to both
of its ends.  A mail relay takes just the requests with builders and with addresses only, and refuses any
other for the first reason that there is (`smtpService_checks_request`).
-/

namespace BuildPlan

/-! ### Addresses -/

/-- A part of an address: it is not empty, and there are no at signs, angle brackets and blanks in it. -/
def IsMailPart (part : String) : Prop :=
  part ≠ "" ∧ ∀ c ∈ part.toList, c ≠ '@' ∧ c ≠ '<' ∧ c ≠ '>' ∧ Chars.isBlank c = false

/-- Two parts with an at sign between them. -/
def IsMailAddress (address : String) : Prop :=
  ∃ name host, address = name ++ "@" ++ host ∧ IsMailPart name ∧ IsMailPart host

variable {address part : String}

theorem IsMailPart.at_notMem (h : IsMailPart part) : '@' ∉ part.toList :=
  fun hc => (h.2 '@' hc).1 rfl

theorem isAddressPart_iff : isAddressPart part.toList ↔ IsMailPart part := by
  simp [isAddressPart, IsMailPart, and_assoc]

/-- A text that is cut into two parts at its at signs is the two parts with an at sign between them. -/
theorem isAddress_iff : isAddress address ↔ IsMailAddress address := by
  unfold isAddress
  constructor
  · intro h
    split at h
    · next name host hsplit =>
      obtain ⟨haddress, -, -⟩ := Chars.splitOnP_eq_pair_iff.mp hsplit
      rw [Bool.and_eq_true, ← String.toList_ofList (l := name), ← String.toList_ofList (l := host),
        isAddressPart_iff, isAddressPart_iff] at h
      refine ⟨String.ofList name, String.ofList host, ?_, h⟩
      apply String.toList_inj.mp
      simp [haddress]
    · cases h
  · rintro ⟨name, host, rfl, hname, hhost⟩
    have hsplit : (name ++ "@" ++ host).toList.splitOnP (· == '@') = [name.toList, host.toList] :=
      Chars.splitOnP_eq_pair_iff.mpr ⟨by simp, hname.at_notMem, hhost.at_notMem⟩
    rw [hsplit]
    dsimp only
    rw [Bool.and_eq_true, isAddressPart_iff, isAddressPart_iff]
    exact ⟨hname, hhost⟩

/-! ### Search patterns -/

/-- A piece of a search pattern. -/
inductive PatternPiece where
  /-- The beginning of the text. -/
  | start
  /-- The end of the text; a line feed there is part of the text. -/
  | finish
  | one (c : Char)
  /-- A run of at least one of the characters. -/
  | many (allowed : Char → Bool)

/-- The pieces match one after the other from a place on, which is given by the text before it and the rest
of the text. -/
def MatchesFrom : List PatternPiece → List Char → List Char → Prop
  | [], _, _ => True
  | .start :: pieces, before, rest => before = [] ∧ MatchesFrom pieces before rest
  | .finish :: pieces, before, rest => rest = [] ∧ MatchesFrom pieces before rest
  | .one c :: pieces, before, rest =>
    ∃ rest', rest = c :: rest' ∧ MatchesFrom pieces (before ++ [c]) rest'
  | .many allowed :: pieces, before, rest =>
    ∃ run rest', rest = run ++ rest' ∧ run ≠ [] ∧ (∀ c ∈ run, allowed c) ∧
      MatchesFrom pieces (before ++ run) rest'

/-- A match begins somewhere in the text. -/
def OccursIn (pattern : List PatternPiece) (text : List Char) : Prop :=
  ∃ before rest, text = before ++ rest ∧ MatchesFrom pattern before rest

/-- The class of all characters but at signs, angle brackets and blanks. -/
def inMailPart (c : Char) : Bool :=
  !(c == '@' || c == '<' || c == '>' || Chars.isBlank c)

/-- Two runs of that class with an at sign between them, from the beginning of the text to its end. -/
def addressPattern : List PatternPiece :=
  [.start, .many inMailPart, .one '@', .many inMailPart, .finish]

theorem isMailPart_ofList_iff {run : List Char} :
    IsMailPart (String.ofList run) ↔ run ≠ [] ∧ ∀ c ∈ run, inMailPart c := by
  simp [IsMailPart, inMailPart, and_assoc]

/-- The pattern is tied to both ends, so it is found only in an address. -/
theorem occursIn_addressPattern_iff : OccursIn addressPattern address.toList ↔ IsMailAddress address := by
  simp only [OccursIn, addressPattern, MatchesFrom]
  constructor
  · -- anchored at both ends, the occurrence is the whole text
    rintro ⟨before, rest, htext, rfl, name, _, rfl, hname, hname', _, rfl, host, _, rfl, hhost, hhost',
      rfl, -⟩
    refine ⟨String.ofList name, String.ofList host, ?_, isMailPart_ofList_iff.mpr ⟨hname, hname'⟩,
      isMailPart_ofList_iff.mpr ⟨hhost, hhost'⟩⟩
    apply String.toList_inj.mp
    simpa using htext
  · rintro ⟨name, host, rfl, hname, hhost⟩
    rw [← String.ofList_toList (s := name), isMailPart_ofList_iff] at hname
    rw [← String.ofList_toList (s := host), isMailPart_ofList_iff] at hhost
    refine ⟨[], name.toList ++ '@' :: host.toList, by simp, rfl, name.toList, _, rfl, hname.1, hname.2,
      host.toList, rfl, host.toList, [], by simp, hhost.1, hhost.2, rfl, trivial⟩

/-! ### Requests -/

namespace NotifierRequest

/-- The sender, then the recipients. -/
def addresses (request : NotifierRequest) : List String :=
  request.sender :: request.recipients

/-- The address is malformed, and those in front of it are not. -/
def FirstMalformed (request : NotifierRequest) (address : String) : Prop :=
  ∃ before after, request.addresses = before ++ address :: after ∧
    (∀ a ∈ before, IsMailAddress a) ∧ ¬ IsMailAddress address

/-- What a mail relay makes of a request that it takes. -/
def relayed (request : NotifierRequest) : MailNotifier where
  builderNames := request.builderNames
  sender := request.sender
  extraRecipients := request.recipients
  relayHost := request.relayHost
  mode := .failing
  addLogs := true
  sendToInterestedUsers := true

end NotifierRequest

variable {request : NotifierRequest} {notifier : MailNotifier} {e : NotifierError}

theorem find?_eq_some_iff_firstMalformed :
    (request.addresses.find? fun a => !isAddress a) = some address ↔ request.FirstMalformed address := by
  rw [List.find?_eq_some_iff_append, NotifierRequest.FirstMalformed]
  simp only [← isAddress_iff, Bool.not_eq_true', Bool.not_not, Bool.not_eq_true]
  exact ⟨fun ⟨hbad, before, after, hsplit, hgood⟩ => ⟨before, after, hsplit, hgood, hbad⟩,
    fun ⟨before, after, hsplit, hgood, hbad⟩ => ⟨hbad, before, after, hsplit, hgood⟩⟩

theorem find?_eq_none_iff_isMailAddress :
    (request.addresses.find? fun a => !isAddress a) = none ↔ ∀ a ∈ request.addresses, IsMailAddress a := by
  simp [List.find?_eq_none, isAddress_iff]

theorem smtpService_of_noBuilders (h : request.builderNames = []) :
    smtpService request = .error .noBuilders := by
  simp [smtpService, h]

theorem smtpService_of_builders (h : request.builderNames ≠ []) :
    smtpService request =
      match request.addresses.find? fun a => !isAddress a with
      | some address => .error (.invalidAddress address)
      | none => .ok request.relayed := by
  unfold smtpService
  rw [if_neg (by simpa using h)]
  rfl

theorem smtpService_eq_ok_iff :
    smtpService request = .ok notifier ↔
      request.builderNames ≠ [] ∧ (∀ a ∈ request.addresses, IsMailAddress a) ∧
        notifier = request.relayed := by
  by_cases hb : request.builderNames = []
  · rw [smtpService_of_noBuilders hb]
    exact iff_of_false nofun fun h => h.1 hb
  rw [smtpService_of_builders hb, ← find?_eq_none_iff_isMailAddress]
  split
  · next address hfind => exact iff_of_false nofun fun h => by cases hfind.symm.trans h.2.1
  · next hfind =>
    exact ⟨fun h => ⟨hb, hfind, (Except.ok.inj h).symm⟩, fun ⟨_, _, h⟩ => congrArg Except.ok h.symm⟩

theorem smtpService_eq_error_iff :
    smtpService request = .error e ↔
      (request.builderNames = [] ∧ e = .noBuilders) ∨
      (request.builderNames ≠ [] ∧ ∃ address, request.FirstMalformed address ∧
        e = .invalidAddress address) := by
  by_cases hb : request.builderNames = []
  · rw [smtpService_of_noBuilders hb]
    simp only [hb, ne_eq, not_true_eq_false, false_and, or_false, true_and, Except.error.injEq, eq_comm]
  rw [smtpService_of_builders hb]
  simp only [hb, false_and, false_or, ne_eq, not_false_eq_true, true_and,
    ← find?_eq_some_iff_firstMalformed]
  split
  · next address hfind => simp [hfind, eq_comm]
  · next hfind => simp [hfind]

/-- **A mail relay checks the whole of a request.**  It takes a request just if there are builders and all
addresses, the sender's and each recipient's, are two parts with an at sign between them; its notifier then
has the builders, the sender, the recipients in their order and the host of the request.  A request without
builders is refused as such, whatever its addresses; any other is refused for its first malformed address,
with the sender in front of the recipients.  An address is the same as a text in which the pattern is
found that is tied to both ends of the text. -/
theorem smtpService_checks_request (request : NotifierRequest) :
    (∀ notifier, smtpService request = .ok notifier ↔
      request.builderNames ≠ [] ∧ (∀ a ∈ request.addresses, IsMailAddress a) ∧
        notifier = request.relayed) ∧
    (∀ e, smtpService request = .error e ↔
      (request.builderNames = [] ∧ e = .noBuilders) ∨
      (request.builderNames ≠ [] ∧ ∃ address, request.FirstMalformed address ∧
        e = .invalidAddress address)) ∧
    ∀ address : String, IsMailAddress address ↔ OccursIn addressPattern address.toList :=
  ⟨fun _ => smtpService_eq_ok_iff, fun _ => smtpService_eq_error_iff,
    fun _ => occursIn_addressPattern_iff.symm⟩

/-- A recipient with a line feed behind it is refused, also if there are other malformed ones after it; with
no builders nothing is said of it, and without it the request is taken. -/
theorem smtpService_checks_request_line_feed :
    let names := [BuilderName.ofPair "app" "linux"]
    let request : NotifierRequest := ⟨names, "ci@host", ["dev@host", "qa@host\n", "qa@qa@host"], "relay"⟩
    smtpService request = .error (.invalidAddress "qa@host\n") ∧
      smtpService { request with builderNames := [] } = .error .noBuilders ∧
      smtpService { request with recipients := ["dev@host"] } =
        .ok ⟨names, "ci@host", ["dev@host"], "relay", .failing, true, true⟩ := by
  intro names request
  obtain ⟨-, hbad, -⟩ := smtpService_checks_request request
  obtain ⟨-, hnone, -⟩ := smtpService_checks_request { request with builderNames := [] }
  obtain ⟨hgood, -⟩ := smtpService_checks_request { request with recipients := ["dev@host"] }
  have hdev : ∀ a ∈ ["ci@host", "dev@host"], IsMailAddress a := by
    simp only [← isAddress_iff]
    decide +kernel
  have hqa : ¬ IsMailAddress "qa@host\n" := by
    rw [← isAddress_iff]
    decide +kernel
  refine ⟨(hbad _).mpr (Or.inr ⟨by decide, _, ⟨["ci@host", "dev@host"], ["qa@qa@host"], rfl, hdev, hqa⟩, rfl⟩),
    (hnone _).mpr (Or.inl ⟨rfl, rfl⟩), (hgood _).mpr ⟨by decide, hdev, rfl⟩⟩

end BuildPlan
