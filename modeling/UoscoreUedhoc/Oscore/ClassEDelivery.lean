import UoscoreUedhoc.Oscore.InnerPlaintext
import UoscoreUedhoc.Oscore.OptionValue
import UoscoreUedhoc.Oscore.ReplayProtection

/-!
# Class E options on delivery

`oscore2coap` merges the outer options with the decrypted ones whatever their
class: `is_class_e` is only asked when a packet is protected.  The outer options
are neither encrypted nor part of the AAD, so that every one of them that the
merge gets to is delivered like a decrypted one.
-/

namespace UoscoreUedhoc.Oscore

open UoscoreUedhoc
open UoscoreUedhoc.CursorMerge
open Update

/-! ## The options that the merge gets to -/

/-- The number of OSCORE options. -/
def oscoreCount (options : List OCoapOption) : Nat :=
  (options.map OCoapOption.optionNumber).count coapOptionOscore

/-- The options in front of the first that is out of order or, once `room`
OSCORE options have been passed, of the next one of these. -/
def leadingOptions : UInt8 → Nat → List OCoapOption → List OCoapOption
  | _, _, [] => []
  | last, room, option :: options =>
      if option.optionNumber < last then
        []
      else if option.optionNumber = coapOptionOscore then
        match room with
        | 0 => []
        | room + 1 =>
            option :: leadingOptions option.optionNumber room options
      else
        option :: leadingOptions option.optionNumber room options

/-- The outer options that the merge gets to: the OSCORE option stops it, unless
the plaintext holds options with that number too. -/
def leadingOuter (outer inner : List OCoapOption) : List OCoapOption :=
  leadingOptions 0 (oscoreCount inner) outer

/-- The inner options that the merge gets to. -/
def leadingInner (outer inner : List OCoapOption) : List OCoapOption :=
  leadingOptions 0 (oscoreCount inner - oscoreCount (leadingOuter outer inner))
    inner

/-- What is in front of the option at which a cursor stops, and why it does. -/
structure Leads (last : UInt8) (room : Nat) (leading rest : List OCoapOption) :
    Prop where
  ascending :
    leading.Pairwise fun option later =>
      option.optionNumber ≤ later.optionNumber
  least : ∀ option ∈ leading, last ≤ option.optionNumber
  oscoreOptions : oscoreCount leading ≤ room
  stops :
    ∀ option ∈ rest.head?,
      option.optionNumber < last ∨
        (∃ other ∈ leading, option.optionNumber < other.optionNumber) ∨
        (option.optionNumber = coapOptionOscore ∧ room ≤ oscoreCount leading)

theorem oscoreCount_cons_oscore {option : OCoapOption}
    (isOscore : option.optionNumber = coapOptionOscore)
    (options : List OCoapOption) :
    oscoreCount (option :: options) = oscoreCount options + 1 := by
  unfold oscoreCount
  rw [List.map_cons, isOscore, List.count_cons_self]

theorem oscoreCount_cons_other {option : OCoapOption}
    (other : option.optionNumber ≠ coapOptionOscore)
    (options : List OCoapOption) :
    oscoreCount (option :: options) = oscoreCount options := by
  unfold oscoreCount
  rw [List.map_cons, List.count_cons_of_ne other]

/-- The cursor moves over one more option. -/
theorem Leads.cons {last : UInt8} {room passed : Nat} {option : OCoapOption}
    {leading rest : List OCoapOption}
    (inOrder : ¬ option.optionNumber < last)
    (counted :
      oscoreCount (option :: leading) = oscoreCount leading + passed)
    (leads : Leads option.optionNumber room leading rest) :
    Leads last (room + passed) (option :: leading) rest := by
  have least : last ≤ option.optionNumber := UInt8.not_lt.mp inOrder
  refine ⟨?_, ?_, ?_, ?_⟩
  · exact List.pairwise_cons.mpr ⟨leads.least, leads.ascending⟩
  · intro entry member
    rcases List.mem_cons.mp member with rfl | later
    · exact least
    · exact UInt8.le_trans least (leads.least entry later)
  · rw [counted]
    exact Nat.add_le_add_right leads.oscoreOptions passed
  · intro stopped first
    rcases leads.stops stopped first with below | ⟨other, isLeading, below⟩ |
      ⟨isOscore, full⟩
    · exact Or.inr (Or.inl ⟨option, List.mem_cons_self, below⟩)
    · exact
        Or.inr (Or.inl ⟨other, List.mem_cons_of_mem _ isLeading, below⟩)
    · rw [counted]
      exact Or.inr (Or.inr ⟨isOscore, Nat.add_le_add_right full passed⟩)

theorem Leads.stopped {last : UInt8} {room : Nat} {rest : List OCoapOption}
    (stops :
      ∀ option ∈ rest.head?,
        option.optionNumber < last ∨
          (option.optionNumber = coapOptionOscore ∧ room = 0)) :
    Leads last room [] rest := by
  refine ⟨List.Pairwise.nil, ?_, Nat.zero_le _, ?_⟩
  · intro option member
    cases member
  · intro option first
    rcases stops option first with below | ⟨isOscore, noRoom⟩
    · exact Or.inl below
    · exact Or.inr (Or.inr ⟨isOscore, noRoom.le⟩)

/-- A cursor with these keys stops there, when the other one passes as many
OSCORE options as they have left. -/
theorem Leads.cursorStops {room : Nat} {numbers : List UInt8}
    {leading rest others : List OCoapOption} (leads : Leads 0 room leading rest)
    (counted :
      numbers.count coapOptionOscore ≤
        room + (others.map OCoapOption.optionNumber).count coapOptionOscore) :
    Stops OCoapOption.optionNumber numbers leading others rest := by
  intro stopped first _
  rcases leads.stops stopped first with below | before | ⟨isOscore, full⟩
  · exact absurd below (UInt8.not_lt.mpr UInt8.zero_le)
  · exact Or.inl before
  · right
    rw [isOscore]
    change _ ≤ oscoreCount leading + _
    omega

theorem leadingOptions_leads (last : UInt8) (room : Nat)
    (options : List OCoapOption) :
    ∃ rest,
      options = leadingOptions last room options ++ rest ∧
        Leads last room (leadingOptions last room options) rest := by
  induction options generalizing last room with
  | nil =>
      refine ⟨[], rfl, Leads.stopped ?_⟩
      intro option first
      cases first
  | cons option options inductionHypothesis =>
      unfold leadingOptions
      by_cases below : option.optionNumber < last
      · rw [if_pos below]
        refine ⟨option :: options, rfl, Leads.stopped ?_⟩
        intro stopped first
        cases first
        exact Or.inl below
      · rw [if_neg below]
        by_cases isOscore : option.optionNumber = coapOptionOscore
        · rw [if_pos isOscore]
          cases room with
          | zero =>
              refine ⟨option :: options, rfl, Leads.stopped ?_⟩
              intro stopped first
              cases first
              exact Or.inr ⟨isOscore, rfl⟩
          | succ room =>
              obtain ⟨rest, split, leads⟩ :=
                inductionHypothesis option.optionNumber room
              have step :=
                leads.cons below (oscoreCount_cons_oscore isOscore _)
              exact ⟨rest, congrArg (option :: ·) split, step⟩
        · rw [if_neg isOscore]
          obtain ⟨rest, split, leads⟩ :=
            inductionHypothesis option.optionNumber room
          have step : Leads last (room + 0) _ rest :=
            leads.cons below (oscoreCount_cons_other isOscore _)
          exact ⟨rest, congrArg (option :: ·) split, step⟩

/-! ## The merge -/

section SortedNumbers

variable {outer inner : List OCoapOption} {oscore : OCoapOption}

/-- The numbers that `options_from_oscore_reorder` sorts, sorted. -/
def sortedNumbers (outer inner : List OCoapOption) : List UInt8 :=
  ExchangeSort.exchangeSort
    (reorderNumbers outer inner (outer.length + inner.length - 1))

theorem sortedNumbers_count (member : oscore ∈ outer)
    (isOscore : oscore.optionNumber = coapOptionOscore) (number : UInt8) :
    (sortedNumbers outer inner).count number =
      (mergedNumbers outer inner).count number +
        (List.replicate
          (outer.length + inner.length - 1 -
            (mergedNumbers outer inner).length) (0 : UInt8)).count number := by
  unfold sortedNumbers
  rw [(ExchangeSort.exchangeSort_perm _).count_eq,
    reorderNumbers_eq inner member isOscore, List.count_append]

/-- Among them, the number of the OSCORE option is as often as among the inner
options. -/
theorem sortedNumbers_count_oscore (member : oscore ∈ outer)
    (isOscore : oscore.optionNumber = coapOptionOscore) :
    (sortedNumbers outer inner).count coapOptionOscore = oscoreCount inner := by
  have noOuter :
      ((outer.map OCoapOption.optionNumber).filter
        (· ≠ coapOptionOscore)).count coapOptionOscore = 0 := by
    apply List.count_eq_zero.mpr
    intro dropped
    exact absurd rfl (of_decide_eq_true (List.mem_filter.mp dropped).2)
  rw [sortedNumbers_count member isOscore, mergedNumbers, List.count_append,
    noOuter, Nat.zero_add, List.count_replicate, if_neg (by decide),
    Nat.add_zero]
  rfl

/-- And every other number as often as among all options. -/
theorem le_sortedNumbers_count (member : oscore ∈ outer)
    (isOscore : oscore.optionNumber = coapOptionOscore) {number : UInt8}
    (other : number ≠ coapOptionOscore) :
    (outer.map OCoapOption.optionNumber).count number +
        (inner.map OCoapOption.optionNumber).count number ≤
      (sortedNumbers outer inner).count number := by
  rw [sortedNumbers_count member isOscore, mergedNumbers, List.count_append,
    List.count_filter (by exact decide_eq_true other)]
  exact Nat.le_add_right _ _

end SortedNumbers

/-- With an OSCORE option in the packet, the merged options are those that the
two cursors get over. -/
theorem optionsFromOscoreReorder_leading {outer inner merged : List OCoapOption}
    {oscore : OCoapOption} (member : oscore ∈ outer)
    (isOscore : oscore.optionNumber = coapOptionOscore)
    (few : outer.length + inner.length < 256)
    (done : optionsFromOscoreReorder outer inner = .ok merged) :
    merged =
      withDeltas 0
        (mergeByKey OCoapOption.optionNumber (leadingOuter outer inner)
          (leadingInner outer inner)) := by
  obtain ⟨_, options, merging, rfl⟩ :=
    (optionsFromOscoreReorder_eq_ok (List.length_pos_of_mem member) few).mp
      done
  change cursorMerge _ (sortedNumbers outer inner) _ _ = _ at merging
  have sorted :
      (sortedNumbers outer inner).Pairwise (· ≤ ·) :=
    ExchangeSort.exchangeSort_sorted _
  have oscoreNumbers := @sortedNumbers_count_oscore outer inner oscore member
    isOscore
  have otherNumbers := fun {number : UInt8} =>
    @le_sortedNumbers_count outer inner oscore member isOscore number
  obtain ⟨outerRest, outerSplit, outerLeads⟩ :=
    leadingOptions_leads 0 (oscoreCount inner) outer
  obtain ⟨innerRest, innerSplit, innerLeads⟩ :=
    leadingOptions_leads 0
      (oscoreCount inner - oscoreCount (leadingOuter outer inner)) inner
  change outer = leadingOuter outer inner ++ outerRest at outerSplit
  change Leads 0 _ (leadingOuter outer inner) outerRest at outerLeads
  change inner = leadingInner outer inner ++ innerRest at innerSplit
  change Leads 0 _ (leadingInner outer inner) innerRest at innerLeads
  generalize sortedNumbers outer inner = numbers at *
  generalize leadingOuter outer inner = outerLeading at *
  generalize leadingInner outer inner = innerLeading at *
  have room := innerLeads.oscoreOptions
  have outerRoom := outerLeads.oscoreOptions
  have covers :
      Covers OCoapOption.optionNumber numbers outerLeading innerLeading := by
    intro number
    by_cases oscoreNumber : number = coapOptionOscore
    · subst oscoreNumber
      rw [oscoreNumbers]
      change oscoreCount outerLeading + oscoreCount innerLeading ≤ _
      omega
    · have enough := otherNumbers oscoreNumber
      rw [outerSplit, innerSplit, List.map_append, List.map_append,
        List.count_append, List.count_append] at enough
      omega
  have outerStops :
      Stops OCoapOption.optionNumber numbers outerLeading [] outerRest := by
    apply outerLeads.cursorStops
    rw [oscoreNumbers]
    exact Nat.le_refl _
  have innerStops :
      Stops OCoapOption.optionNumber numbers innerLeading outerLeading
        innerRest := by
    apply innerLeads.cursorStops
    rw [oscoreNumbers]
    change oscoreCount inner ≤ _ + oscoreCount outerLeading
    omega
  rw [outerSplit, innerSplit] at merging
  rw [cursorMerge_eq_some OCoapOption.optionNumber sorted outerLeads.ascending
    innerLeads.ascending covers outerStops innerStops merging]

/-! ## What the context takes over from the OSCORE option -/

theorem kidContextUpdate_unique {platform : Platform}
    {first second : ByteArrayView} {c firstAfter secondAfter : Context}
    (same : first.content = second.content)
    (firstDone :
      exec (kidContextUpdate platform first) c = (.ok (), firstAfter))
    (secondDone :
      exec (kidContextUpdate platform second) c = (.ok (), secondAfter)) :
    firstAfter = secondAfter := by
  obtain ⟨_, _, _, commonIv, senderKey, recipientKey, ivDerived,
    senderDerived, recipientDerived, rfl⟩ := kidContextUpdate_eq_ok.mp firstDone
  obtain ⟨_, _, _, otherIv, otherSender, otherRecipient, otherIvDerived,
    otherSenderDerived, otherRecipientDerived, rfl⟩ :=
    kidContextUpdate_eq_ok.mp secondDone
  rw [same] at ivDerived senderDerived recipientDerived
  have sameIv : commonIv = otherIv :=
    Except.ok.inj (ivDerived.symm.trans otherIvDerived)
  subst sameIv
  have sameSender : senderKey = otherSender :=
    Except.ok.inj (senderDerived.symm.trans otherSenderDerived)
  have sameRecipient : recipientKey = otherRecipient :=
    Except.ok.inj (recipientDerived.symm.trans otherRecipientDerived)
  rw [same, sameSender, sameRecipient]

theorem serverUpdate_unique {platform : Platform}
    {firstPiv firstContext secondPiv secondContext : ByteArrayView}
    {c firstAfter secondAfter : Context}
    (samePiv : firstPiv.content = secondPiv.content)
    (sameContext : firstContext.content = secondContext.content)
    (firstDone :
      exec (serverUpdate platform firstPiv firstContext) c =
        (.ok (), firstAfter))
    (secondDone :
      exec (serverUpdate platform secondPiv secondContext) c =
        (.ok (), secondAfter)) :
    firstAfter = secondAfter := by
  have firstCompared :=
    @arrayEquals_of_inBounds c.cc.idContext _
      (serverUpdate_inBounds firstDone)
  have secondCompared :=
    @arrayEquals_of_inBounds c.cc.idContext _
      (serverUpdate_inBounds secondDone)
  rw [sameContext] at firstCompared
  have compared := firstCompared.trans secondCompared.symm
  obtain ⟨_, _, firstDone⟩ := serverUpdate_eq_ok.mp firstDone
  obtain ⟨_, _, secondDone⟩ := serverUpdate_eq_ok.mp secondDone
  rw [compared, samePiv] at firstDone
  rcases firstDone with ⟨equal, rfl⟩ | ⟨differs, firstUpdated⟩
  · rcases secondDone with ⟨_, rfl⟩ | ⟨differs, _⟩
    · rfl
    · rw [equal] at differs
      cases differs
  · rcases secondDone with ⟨equal, _⟩ | ⟨_, secondUpdated⟩
    · rw [equal] at differs
      cases differs
    · exact kidContextUpdate_unique sameContext firstUpdated secondUpdated

/-- What `oscore_option_parser` reads from an OSCORE option. -/
structure CarriedFields where
  piv : Option Bytes
  kidContext : Option Bytes
  kid : Option Bytes
  deriving DecidableEq, Repr

def CompressedOscoreOption.carried (option : CompressedOscoreOption) :
    CarriedFields where
  piv := (pivArray option).toOption.map ByteArrayView.content
  kidContext := option.kidContext.map ByteArrayView.content
  kid := option.kid.map ByteArrayView.content

/-- Requests whose OSCORE options have the same fields update a context in the
same way. -/
theorem requestAccept_unique {platform : Platform}
    {firstOptions secondOptions : List OCoapOption}
    {first second : CompressedOscoreOption}
    {c firstAfter secondAfter : Context}
    (same : first.carried = second.carried)
    (firstDone :
      exec (requestAccept platform firstOptions first) c =
        (.ok (), firstAfter))
    (secondDone :
      exec (requestAccept platform secondOptions second) c =
        (.ok (), secondAfter)) :
    firstAfter = secondAfter := by
  obtain ⟨_, firstPiv, firstContext, firstBetween, nonce, firstFields,
    firstServer, created, _, rfl⟩ := requestAccept_updated firstDone
  obtain ⟨_, secondPiv, secondContext, secondBetween, otherNonce, secondFields,
    secondServer, otherCreated, _, rfl⟩ := requestAccept_updated secondDone
  have samePiv := congrArg CarriedFields.piv same
  have sameContext := congrArg CarriedFields.kidContext same
  unfold CompressedOscoreOption.carried at samePiv sameContext
  dsimp only at samePiv sameContext
  rw [firstFields.piv, secondFields.piv] at samePiv
  rw [firstFields.kidContext, secondFields.kidContext] at sameContext
  have sameBetween :=
    serverUpdate_unique (Option.some.inj samePiv) (Option.some.inj sameContext)
      firstServer secondServer
  subst sameBetween
  rw [created, Except.ok.injEq] at otherCreated
  rw [otherCreated]

/-! ## Delivered packets -/

theorem oCoapPkgGenerate_eq_ok {plaintext : Bytes}
    {packet coapPacket : OCoapPacket} :
    oCoapPkgGenerate plaintext packet = .ok coapPacket ↔
      ∃ inner outer options,
        oscoreDecryptedPayloadParser plaintext = .ok inner ∧
          packet.options = some outer ∧
          optionsFromOscoreReorder outer inner.eOptions = .ok options ∧
          coapPacket =
            { header := { packet.header with code := inner.code }
              token := if packet.header.tkl = 0 then some [] else packet.token
              options := some options
              payloadLen := inner.payload.length
              payload := inner.payload } := by
  unfold oCoapPkgGenerate
  simp only [outcome_bind_eq_ok, orUndefined_eq_ok, Except.ok.injEq]
  constructor
  · intro generated
    obtain ⟨inner, decrypted, outer, present, options, merged, same⟩ := generated
    exact ⟨inner, outer, options, decrypted, present, merged, same.symm⟩
  · intro generated
    obtain ⟨inner, outer, options, decrypted, present, merged, same⟩ := generated
    exact ⟨inner, decrypted, outer, present, options, merged, same.symm⟩

/-- `oscore2coap` accepts the packet: it decrypts `inner` and writes the bytes
of `coapPacket`. -/
structure Delivery (platform : Platform) (input : Bytes) (capacity : Nat)
    (c after : Context) (output : Bytes) (packet : OCoapPacket)
    (inner : DecryptedPayload) (coapPacket : OCoapPacket) : Prop where
  parsed : buf2coap input = .ok packet
  decrypted :
    ∃ option plaintext,
      oscoreOptionParser packet = .ok (option, true) ∧
        exec (oscorePacketDecrypt platform packet option) c =
          (.ok plaintext, after) ∧
        oscoreDecryptedPayloadParser plaintext = .ok inner ∧
        oCoapPkgGenerate plaintext packet = .ok coapPacket
  written : coap2buf coapPacket capacity = .ok output

/-- The outer options of a packet. -/
def outerOptions (packet : OCoapPacket) : List OCoapOption :=
  packet.options.getD []

/-- Code and payload are those of the plaintext; the options are merged from
those that the two cursors get over. -/
theorem Delivery.packet_eq {platform : Platform} {input : Bytes}
    {capacity : Nat} {c after : Context} {output : Bytes}
    {packet : OCoapPacket} {inner : DecryptedPayload}
    {coapPacket : OCoapPacket}
    (delivery :
      Delivery platform input capacity c after output packet inner coapPacket) :
    coapPacket.header.code = inner.code ∧
      coapPacket.payload = inner.payload ∧
      coapPacket.options =
        some
          (withDeltas 0
            (mergeByKey OCoapOption.optionNumber
              (leadingOuter (outerOptions packet) inner.eOptions)
              (leadingInner (outerOptions packet) inner.eOptions))) := by
  obtain ⟨option, plaintext, optionParsed, _, isInner, generated⟩ :=
    delivery.decrypted
  obtain ⟨other, outer, options, isOther, present, merged, rfl⟩ :=
    oCoapPkgGenerate_eq_ok.mp generated
  rw [isInner, Except.ok.injEq] at isOther
  subst isOther
  obtain ⟨oscore, member, isOscore⟩ :=
    exists_oscore_of_parsed present optionParsed
  have outerFew := buf2coap_length_le delivery.parsed present
  have innerFew := oscoreDecryptedPayloadParser_length_le isInner
  have few : outer.length + inner.eOptions.length < 256 := by
    unfold maxOptionCount at outerFew
    unfold maxInnerOptionCount at innerFew
    omega
  have isOuter : outerOptions packet = outer := by
    rw [outerOptions, present, Option.getD_some]
  rw [isOuter]
  exact
    ⟨rfl, rfl,
      congrArg some
        (optionsFromOscoreReorder_leading member isOscore few merged)⟩

/-! ## Packets that differ in their other outer options -/

/-- The OSCORE options of a packet. -/
def oscoreContents (packet : OCoapPacket) : List OptionContent :=
  ((outerOptions packet).filter fun option =>
    option.optionNumber = coapOptionOscore).map OCoapOption.content

/-- What the parser of the OSCORE option reads. -/
def carriedFields (packet : OCoapPacket) : Outcome CarriedFields :=
  (oscoreOptionParser packet).map fun parsed => parsed.1.carried

/-- Two packets with the same header, token, OSCORE option and ciphertext.  The
fields of the OSCORE option follow from its value, unless the parser reads
behind that. -/
structure SameProtectedPart (first second : OCoapPacket) : Prop where
  header : first.header = second.header
  token : tokenWritten first = tokenWritten second
  oscoreOption : oscoreContents first = oscoreContents second
  fields :
    isRequest first = true → carriedFields first = carriedFields second
  payloadLen : first.payloadLen = second.payloadLen
  payload : first.payload = second.payload

/-- From one context, they have the same plaintext. -/
theorem SameProtectedPart.inner_eq {platform : Platform}
    {firstInput secondInput : Bytes} {firstCapacity secondCapacity : Nat}
    {c firstAfter secondAfter : Context} {firstOutput secondOutput : Bytes}
    {first second : OCoapPacket} {firstInner secondInner : DecryptedPayload}
    {firstCoap secondCoap : OCoapPacket}
    (same : SameProtectedPart first second)
    (firstDelivery :
      Delivery platform firstInput firstCapacity c firstAfter firstOutput first
        firstInner firstCoap)
    (secondDelivery :
      Delivery platform secondInput secondCapacity c secondAfter secondOutput
        second secondInner secondCoap) :
    firstInner = secondInner := by
  obtain ⟨firstOption, firstPlaintext, firstParsed, firstDecrypted, firstIs,
    _⟩ := firstDelivery.decrypted
  obtain ⟨secondOption, secondPlaintext, secondParsed, secondDecrypted,
    secondIs, _⟩ := secondDelivery.decrypted
  obtain ⟨firstOptions, firstBetween, _, firstAccepted, firstOpened, _⟩ :=
    oscorePacketDecrypt_eq_ok.mp firstDecrypted
  obtain ⟨secondOptions, secondBetween, _, secondAccepted, secondOpened, _⟩ :=
    oscorePacketDecrypt_eq_ok.mp secondDecrypted
  have requests : isRequest first = isRequest second := by
    unfold isRequest
    rw [same.header]
  rw [exec_whenRequest] at firstAccepted secondAccepted
  have sameBetween : firstBetween = secondBetween := by
    by_cases request : isRequest first = true
    · have fields := same.fields request
      rw [if_pos request] at firstAccepted
      rw [if_pos (requests.symm.trans request)] at secondAccepted
      unfold carriedFields at fields
      rw [firstParsed, secondParsed] at fields
      exact
        requestAccept_unique (Except.ok.inj fields) firstAccepted
          secondAccepted
    · rw [if_neg request] at firstAccepted
      rw [if_neg (requests ▸ request)] at secondAccepted
      exact
        (Prod.mk.inj firstAccepted).2.symm.trans
          (Prod.mk.inj secondAccepted).2
  have samePlaintext : firstPlaintext = secondPlaintext := by
    unfold payloadDecrypt at firstOpened secondOpened
    rw [sameBetween, same.payloadLen, same.payload] at firstOpened
    exact Except.ok.inj (firstOpened.symm.trans secondOpened)
  rw [samePlaintext] at firstIs
  exact Except.ok.inj (firstIs.symm.trans secondIs)

/-! ## The delivered options of class E -/

/-- The class E options of a packet. -/
def classEContents (packet : OCoapPacket) : List OptionContent :=
  (classE (outerOptions packet)).map OCoapOption.content

/-- The packets agree on all that must be protected. -/
structure SameClassEParts (first second : OCoapPacket) : Prop where
  code : first.header.code = second.header.code
  payload : first.payload = second.payload
  options : classEContents first = classEContents second

/-- The options with one number that the merge gets to. -/
def reachedContents (number : UInt8) (outer inner : List OCoapOption) :
    List OptionContent :=
  (withKey OCoapOption.optionNumber number
    (leadingOuter outer inner ++ leadingInner outer inner)).map
      OCoapOption.content

/-- With either list of outer options, the merge gets to the same options of
class E, number by number. -/
def ReachesSameClassE (firstOuter secondOuter inner : List OCoapOption) :
    Prop :=
  ∀ number : UInt8, isClassE number.toUInt16 = true →
    reachedContents number firstOuter inner =
      reachedContents number secondOuter inner

/-- The contents of the class E options among those that are delivered. -/
def mergedClassE (outer inner : List OCoapOption) : List OptionContent :=
  (classE
    (mergeByKey OCoapOption.optionNumber (leadingOuter outer inner)
      (leadingInner outer inner))).map OCoapOption.content

theorem leadingOuter_ascending (outer inner : List OCoapOption) :
    (leadingOuter outer inner).Pairwise fun option later =>
      option.optionNumber ≤ later.optionNumber := by
  obtain ⟨_, _, leads⟩ := leadingOptions_leads 0 (oscoreCount inner) outer
  exact leads.ascending

theorem leadingInner_ascending (outer inner : List OCoapOption) :
    (leadingInner outer inner).Pairwise fun option later =>
      option.optionNumber ≤ later.optionNumber := by
  obtain ⟨_, _, leads⟩ :=
    leadingOptions_leads 0
      (oscoreCount inner - oscoreCount (leadingOuter outer inner)) inner
  exact leads.ascending

theorem mergedClassE_sorted (outer inner : List OCoapOption) :
    (mergedClassE outer inner).Pairwise fun content later =>
      content.number ≤ later.number := by
  apply List.pairwise_map.mpr
  exact
    List.Pairwise.filter _
      (mergeByKey_sorted (leadingOuter_ascending outer inner)
        (leadingInner_ascending outer inner))

theorem withKey_mergedClassE (outer inner : List OCoapOption)
    (number : UInt8) :
    withKey OptionContent.number number (mergedClassE outer inner) =
      if isClassE number.toUInt16 then reachedContents number outer inner
      else [] := by
  have merged :=
    @withKey_mergeByKey _ _ _ OCoapOption.optionNumber _
      (leadingInner outer inner) (leadingOuter_ascending outer inner) number
  have selected :
      withKey OptionContent.number number (mergedClassE outer inner) =
        ((withKey OCoapOption.optionNumber number
          (mergeByKey OCoapOption.optionNumber (leadingOuter outer inner)
            (leadingInner outer inner))).filter fun option =>
              isClassE option.optionNumber.toUInt16).map
                OCoapOption.content := by
    unfold withKey mergedClassE classE
    rw [List.filter_map, List.filter_filter, List.filter_filter]
    apply congrArg
    apply List.filter_congr
    intro option _
    exact Bool.and_comm _ _
  rw [selected]
  by_cases isE : isClassE number.toUInt16 = true
  · have kept :
        (withKey OCoapOption.optionNumber number
          (mergeByKey OCoapOption.optionNumber (leadingOuter outer inner)
            (leadingInner outer inner))).filter (fun option =>
              isClassE option.optionNumber.toUInt16) =
          withKey OCoapOption.optionNumber number
            (mergeByKey OCoapOption.optionNumber (leadingOuter outer inner)
              (leadingInner outer inner)) := by
      apply List.filter_eq_self.mpr
      intro option member
      rw [((mem_withKey OCoapOption.optionNumber).mp member).2]
      exact isE
    rw [kept, merged, if_pos isE]
    unfold reachedContents withKey
    rw [List.filter_append]
  · rw [if_neg isE]
    apply List.map_eq_nil_iff.mpr
    apply List.filter_eq_nil_iff.mpr
    intro option member
    rw [((mem_withKey OCoapOption.optionNumber).mp member).2]
    exact isE

theorem mergedClassE_eq_iff (firstOuter secondOuter inner : List OCoapOption) :
    mergedClassE firstOuter inner = mergedClassE secondOuter inner ↔
      ReachesSameClassE firstOuter secondOuter inner := by
  rw [eq_iff_withKey_eq OptionContent.number
    (mergedClassE_sorted firstOuter inner)
    (mergedClassE_sorted secondOuter inner)]
  apply forall_congr'
  intro number
  rw [withKey_mergedClassE, withKey_mergedClassE]
  by_cases isE : isClassE number.toUInt16 = true
  · rw [if_pos isE, if_pos isE]
    exact ⟨fun same _ => same, fun same => same isE⟩
  · rw [if_neg isE, if_neg isE]
    exact ⟨fun _ isClass => absurd isClass isE, fun _ => rfl⟩

theorem Delivery.classEContents_eq {platform : Platform} {input : Bytes}
    {capacity : Nat} {c after : Context} {output : Bytes}
    {packet : OCoapPacket} {inner : DecryptedPayload}
    {coapPacket : OCoapPacket}
    (delivery :
      Delivery platform input capacity c after output packet inner coapPacket) :
    classEContents coapPacket =
      mergedClassE (outerOptions packet) inner.eOptions := by
  have options := delivery.packet_eq.2.2
  unfold classEContents mergedClassE
  rw [outerOptions, options, Option.getD_some]
  have contents :=
    congrArg
      (List.filter fun content : OptionContent =>
        isClassE content.number.toUInt16)
      (withDeltas_content 0
        (mergeByKey OCoapOption.optionNumber
          (leadingOuter (outerOptions packet) inner.eOptions)
          (leadingInner (outerOptions packet) inner.eOptions)))
  rw [List.filter_map, List.filter_map] at contents
  exact contents

/-- Outer options of the other classes change nothing, as long as the plaintext
has no OSCORE option. -/
theorem reachesSameClassE_of_notClassE
    {firstOuter secondOuter inner : List OCoapOption}
    (firstOther :
      ∀ option ∈ firstOuter, isClassE option.optionNumber.toUInt16 = false)
    (secondOther :
      ∀ option ∈ secondOuter, isClassE option.optionNumber.toUInt16 = false)
    (noOscore : oscoreCount inner = 0) :
    ReachesSameClassE firstOuter secondOuter inner := by
  have reached : ∀ outer : List OCoapOption,
      (∀ option ∈ outer, isClassE option.optionNumber.toUInt16 = false) →
        ∀ number : UInt8, isClassE number.toUInt16 = true →
          reachedContents number outer inner =
            (withKey OCoapOption.optionNumber number
              (leadingOptions 0 0 inner)).map OCoapOption.content := by
    intro outer other number isE
    obtain ⟨rest, split, _⟩ := leadingOptions_leads 0 (oscoreCount inner) outer
    have noOuter :
        withKey OCoapOption.optionNumber number (leadingOuter outer inner) =
          [] := by
      apply withKey_eq_nil
      intro option member same
      have isOuter : option ∈ outer := by
        rw [split]
        exact List.mem_append_left _ member
      have notE := other option isOuter
      rw [same, isE] at notE
      cases notE
    unfold withKey at noOuter
    unfold reachedContents withKey leadingInner
    rw [List.filter_append, noOuter, noOscore, Nat.zero_sub, List.nil_append]
  intro number isE
  rw [reached firstOuter firstOther number isE,
    reached secondOuter secondOther number isE]

/-- Two accepted packets that differ in their other outer options deliver the
same class E options, code and payload exactly when the merge gets to the same
options of class E with either outer list. -/
theorem classE_authentic_iff (platform : Platform)
    (c firstAfter secondAfter : Context)
    (firstInput secondInput firstOutput secondOutput : Bytes)
    (firstCapacity secondCapacity : Nat)
    (first second firstCoap secondCoap : OCoapPacket)
    (firstInner secondInner : DecryptedPayload)
    (firstDelivery :
      Delivery platform firstInput firstCapacity c firstAfter firstOutput first
        firstInner firstCoap)
    (secondDelivery :
      Delivery platform secondInput secondCapacity c secondAfter secondOutput
        second secondInner secondCoap)
    (same : SameProtectedPart first second) :
    SameClassEParts firstCoap secondCoap ↔
      ReachesSameClassE (outerOptions first) (outerOptions second)
        firstInner.eOptions := by
  have sameInner := same.inner_eq firstDelivery secondDelivery
  subst sameInner
  obtain ⟨firstCode, firstPayload, _⟩ := firstDelivery.packet_eq
  obtain ⟨secondCode, secondPayload, _⟩ := secondDelivery.packet_eq
  rw [← mergedClassE_eq_iff, ← firstDelivery.classEContents_eq,
    ← secondDelivery.classEContents_eq]
  constructor
  · intro agrees
    exact agrees.options
  · intro options
    exact
      ⟨firstCode.trans secondCode.symm, firstPayload.trans secondPayload.symm,
        options⟩

private def t1Ciphertext : Bytes :=
  [0xAE, 0x8A, 0x2A, 3, 0x20, 0xF0, 0xF5, 6, 0x31, 0x7C, 0xBD, 0x46, 0xF4]

/-- The OSCORE request of test vector T1 with outer options in front. -/
private def t1OscorePacket (front : List OCoapOption) (delta : UInt16) :
    OCoapPacket where
  header := { ver := 1, type := 0, tkl := 0, code := 2, mid := 1 }
  token := some []
  options :=
    some
      (front ++
        [ { delta, len := 2, value := 9 :: 0 :: 0xFF :: t1Ciphertext
            optionNumber := 9 } ])
  payloadLen := 13
  payload := t1Ciphertext

private def t1UriHost : OCoapOption where
  delta := 3
  len := 1
  value := 0x61 :: 0x62 :: 9 :: 0 :: 0xFF :: t1Ciphertext
  optionNumber := 3

private def t1IfNoneMatch : OCoapOption where
  delta := 5
  len := 0
  value := []
  optionNumber := 5

private def t1UriPath (delta : UInt16) : OCoapOption where
  delta := delta
  len := 3
  value := [0x74, 0x76, 0x31]
  optionNumber := 11

private def t1Inner : DecryptedPayload where
  code := 1
  eOptions := [t1UriPath 11]
  payload := []

/-- The request that the server delivers. -/
private def t1Delivered (front : List OCoapOption) (delta : UInt16) :
    OCoapPacket :=
  { t1Packet with options := some (front ++ [t1UriPath delta]) }

private def t1Accepted : Context :=
  (exec (oscore2coap t1Platform t1OscoreRequest 64) t1Server).2

private theorem t1OscoreRequest_delivery :
    Delivery t1Platform t1OscoreRequest 64 t1Server t1Accepted t1Request
      (t1OscorePacket [] 9) t1Inner (t1Delivered [] 11) :=
  ⟨rfl, ⟨_, [1, 0xB3, 0x74, 0x76, 0x31], rfl, rfl, rfl, rfl⟩, rfl⟩

private theorem t1HostRequest_delivery :
    Delivery t1Platform
      (0x40 :: 2 :: 0 :: 1 :: 0x31 :: 0x61 :: 0x62 :: 9 :: 0 :: 0xFF ::
        t1Ciphertext) 64 t1Server t1Accepted
      [0x40, 1, 0, 1, 0x31, 0x61, 0x83, 0x74, 0x76, 0x31]
      (t1OscorePacket [t1UriHost] 6) t1Inner (t1Delivered [t1UriHost] 8) :=
  ⟨rfl, ⟨_, [1, 0xB3, 0x74, 0x76, 0x31], rfl, rfl, rfl, rfl⟩, rfl⟩

private theorem t1MatchRequest_delivery :
    Delivery t1Platform
      (0x40 :: 2 :: 0 :: 1 :: 0x50 :: 0x42 :: 9 :: 0 :: 0xFF :: t1Ciphertext)
      64 t1Server t1Accepted [0x40, 1, 0, 1, 0x50, 0x63, 0x74, 0x76, 0x31]
      (t1OscorePacket [t1IfNoneMatch] 4) t1Inner
      (t1Delivered [t1IfNoneMatch] 6) :=
  ⟨rfl, ⟨_, [1, 0xB3, 0x74, 0x76, 0x31], rfl, rfl, rfl, rfl⟩, rfl⟩

/-- A Uri-Host option in front of the OSCORE option changes nothing that must
be protected. -/
theorem classE_authentic_uriHost :
    SameClassEParts (t1Delivered [] 11) (t1Delivered [t1UriHost] 8) :=
  (classE_authentic_iff t1Platform t1Server t1Accepted t1Accepted _ _ _ _ 64 64
      (t1OscorePacket [] 9) (t1OscorePacket [t1UriHost] 6) _ _ t1Inner t1Inner
      t1OscoreRequest_delivery t1HostRequest_delivery
      ⟨rfl, rfl, rfl, fun _ => rfl, rfl, rfl⟩).mpr
    (reachesSameClassE_of_notClassE (by decide) (by decide) rfl)

/-- An If-None-Match option there is delivered to the application. -/
theorem ifNoneMatch_delivered :
    ¬ ∀ (platform : Platform) (params : OscoreInitParams)
        (c firstAfter secondAfter : Context)
        (firstInput secondInput firstOutput secondOutput : Bytes)
        (firstCapacity secondCapacity : Nat)
        (first second firstCoap secondCoap : OCoapPacket)
        (firstInner secondInner : DecryptedPayload),
        Initialised platform params c →
        Delivery platform firstInput firstCapacity c firstAfter firstOutput
          first firstInner firstCoap →
        Delivery platform secondInput secondCapacity c secondAfter secondOutput
          second secondInner secondCoap →
        SameProtectedPart first second →
        SameClassEParts firstCoap secondCoap := by
  intro authentic
  have agrees :=
    authentic t1Platform t1ServerParams t1Server _ _ _ _ _ _ _ _ _ _ _ _ _ _
      t1Server_initialised t1OscoreRequest_delivery t1MatchRequest_delivery
      ⟨rfl, rfl, rfl, fun _ => rfl, rfl, rfl⟩
  exact absurd agrees.options (by decide)

end UoscoreUedhoc.Oscore
