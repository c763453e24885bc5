import NomoApi.Lib.Run
import NomoApi.Relay.ModelMapping

/-! # The key and the model of every attempt

The first channel of a request is set up by the distributor, which drops the error; a retry whose
channel cannot be set up ends the request (`getChannel`, `controller/relay.go`). The attempts share
the context and the requested model name. -/

namespace NomoApi

open Option ChannelStatus

variable {Setting Other Override : Type}

/-- **What is fixed for a request**: the readers, the mode, and what the adaptors do. -/
structure AttemptRules (Setting Other Override : Type) extends
    ContextReaders Setting Other Override where
  readMap : String → Option ModelMap
  isResponsesCompact : Bool
  apiVersionQuery : String
  /-- `GetRequestURL` finds an address, and `SetupRequestHeader` takes the key. -/
  dials : ChannelMeta Setting Other Override → Bool

structure ChosenChannel where
  channel : RoutedChannel
  pick : KeyPick

structure AttemptInfo (Setting Other Override : Type) where
  originModelName : String
  scope : ChannelScope Setting Other Override

structure Attempt (Setting Other Override : Type) where
  channel : RoutedChannel
  setupError : Option KeyError
  info : ChannelMeta Setting Other Override
  sent : Option String

def compactAPITypes : List Int := [0, 34]

namespace AttemptInfo

variable (rules : AttemptRules Setting Other Override)
  (info : AttemptInfo Setting Other Override) (chosen : ChosenChannel)

def start (model : String) : AttemptInfo Setting Other Override where
  originModelName :=
    if rules.isResponsesCompact = true ∧ model ≠ "" then withCompactModelSuffix model else model
  scope :=
    { channelSetting := rules.getSetting none
      channelOtherSetting := rules.getOtherSettings ""
      paramOverride := rules.getOverride none
      headerOverride := rules.getOverride none }

def ready : Option KeyError × ChannelScope Setting Other Override :=
  setupContextForSelectedChannel rules.toContextReaders (some chosen.channel) info.originModelName
    chosen.pick info.scope

def channelMeta : ChannelMeta Setting Other Override :=
  initChannelMeta rules.apiVersionQuery (info.ready rules chosen).2

def failed : Attempt Setting Other Override × AttemptInfo Setting Other Override :=
  (⟨chosen.channel, (info.ready rules chosen).1, info.channelMeta rules chosen, none⟩,
    ⟨info.originModelName, (info.ready rules chosen).2⟩)

def attempt : Attempt Setting Other Override × AttemptInfo Setting Other Override :=
  if rules.isResponsesCompact = true ∧ (info.channelMeta rules chosen).apiType ∉ compactAPITypes
  then info.failed rules chosen
  else
    match modelMappedHelper rules.readMap rules.isResponsesCompact
      (info.ready rules chosen).2.modelMapping info.originModelName
      (info.channelMeta rules chosen) with
    | .error _ => info.failed rules chosen
    | .ok (originModelName, mapped) =>
      (⟨chosen.channel, (info.ready rules chosen).1, mapped, some mapped.upstreamModelName⟩,
        ⟨originModelName, (info.ready rules chosen).2⟩)

/-- **The attempts of a request** with the selected channels, as long as it is retried. -/
def attempts : Bool → AttemptInfo Setting Other Override → List ChosenChannel →
    List (Attempt Setting Other Override)
  | _, _, [] => []
  | first, info, chosen :: rest =>
    let result := info.attempt rules chosen
    -- A retry ends with the error of its channel; that of the first channel is dropped.
    if result.1.setupError.isSome = true ∧ first = false then []
    else result.1 :: attempts false result.2 rest

/-- **The attempt gets to the adaptor**: the channel takes the request, and its mapping leads to a
name. -/
def Sends (channel : RoutedChannel) : Prop :=
  (rules.isResponsesCompact = true → (channelType2APIType channel.type).1 ∈ compactAPITypes) ∧
    ∃ map model, channelMap rules.readMap channel.getModelMapping = some map ∧
      ChainEnd map.target (mappingModelName rules.isResponsesCompact info.originModelName) model

/-- **The attempt reaches upstream**: it gets to the adaptor, which has an address for it. Without a
key neither the key nor the address of the channel is known. -/
def Reaches : Prop :=
  info.Sends rules chosen.channel ∧ rules.dials (info.attempt rules chosen).1.info = true

/-- **The attempt leaves the requested name alone**: a compaction request is not mapped to another
model. -/
def KeepsModel : Prop :=
  rules.isResponsesCompact = true →
    (channelType2APIType chosen.channel.type).1 ∈ compactAPITypes →
      ∀ map model, channelMap rules.readMap chosen.channel.getModelMapping = some map →
        ChainEnd map.target (trimSuffix info.originModelName compactModelSuffix) model →
          trimSuffix model compactModelSuffix = trimSuffix info.originModelName compactModelSuffix

end AttemptInfo

/-- **A key is known for the first attempt**: some key is enabled, and the place in the turn can be
read. -/
def ChosenChannel.KeyKnown (jsonArray : String → Option (List String)) (chosen : ChosenChannel) :
    Prop :=
  chosen.channel.channelInfo.isMultiKey = true →
    (∃ key, chosen.channel.EnabledKey jsonArray key) ∧
      (chosen.channel.TurnKnown chosen.pick ∨ chosen.channel.EnabledKey jsonArray "")

open AttemptInfo

/-! ### What one attempt does -/

section

variable (rules : AttemptRules Setting Other Override)
  (info : AttemptInfo Setting Other Override) (chosen : ChosenChannel)

theorem ready_spec : (info.ready rules chosen).2.channelType = chosen.channel.type ∧
      (info.ready rules chosen).2.modelMapping = chosen.channel.getModelMapping ∧
      (info.ready rules chosen).2.originalModel = info.originModelName ∧
      (info.ready rules chosen).2.keys =
        chosen.channel.keysAfter rules.toContextReaders chosen.pick info.scope.keys := by
  unfold ready
  rw [setup_some]
  exact ⟨rfl, rfl, rfl, rfl⟩

theorem attempt_cases : (∃ map model origin' isModelMapped, info.Sends rules chosen.channel ∧
        channelMap rules.readMap chosen.channel.getModelMapping = some map ∧
        ChainEnd map.target (mappingModelName rules.isResponsesCompact info.originModelName) model ∧
        info.attempt rules chosen = (⟨chosen.channel, (info.ready rules chosen).1,
            { info.channelMeta rules chosen with isModelMapped, upstreamModelName := model },
            some model⟩, ⟨origin', (info.ready rules chosen).2⟩) ∧
        mappingModelName rules.isResponsesCompact origin' =
          if rules.isResponsesCompact then trimSuffix model compactModelSuffix
          else info.originModelName) ∨
      ¬ info.Sends rules chosen.channel ∧
        info.attempt rules chosen = info.failed rules chosen := by
  obtain ⟨htype, hmapping, horiginal, -⟩ := ready_spec rules info chosen
  have hapi : (info.channelMeta rules chosen).apiType =
      (channelType2APIType chosen.channel.type).1 := by
    rw [← htype]
    rfl
  unfold AttemptInfo.attempt
  rw [hapi, hmapping]
  by_cases hrefused : rules.isResponsesCompact = true ∧
      (channelType2APIType chosen.channel.type).1 ∉ compactAPITypes
  · rw [if_pos hrefused]
    exact .inr ⟨fun hsends => hrefused.2 (hsends.1 hrefused.1), rfl⟩
  rw [if_neg hrefused]
  rcases @modelMapped_cases _ _ _ rules.readMap rules.isResponsesCompact
      chosen.channel.getModelMapping info.originModelName (info.channelMeta rules chosen) rfl
      horiginal with
    ⟨map, model, origin', isModelMapped, hmap, hend, hok, hnext⟩ | ⟨hno, text, herror⟩
  · have hsends : info.Sends rules chosen.channel :=
      ⟨fun hcompact => not_not.mp fun hnot => hrefused ⟨hcompact, hnot⟩, map, model, hmap, hend⟩
    rw [hok]
    exact .inl ⟨map, model, origin', isModelMapped, hsends, hmap, hend, rfl, hnext⟩
  · rw [herror]
    refine .inr ⟨?_, rfl⟩
    rintro ⟨-, map, model, hmap, hend⟩
    exact hno map hmap model hend

theorem sent_ne_none_iff : (info.attempt rules chosen).1.sent ≠ none ↔
    info.Sends rules chosen.channel := by
  rcases attempt_cases rules info chosen with
    ⟨map, model, origin', isModelMapped, hsends, -, -, heq, -⟩ | ⟨hnot, heq⟩
  · rw [heq]
    exact iff_of_true (some_ne_none model) hsends
  · rw [heq]
    exact iff_of_false (not_not.mpr rfl) hnot

theorem attempt_frame : (info.attempt rules chosen).1.channel = chosen.channel ∧
      (info.attempt rules chosen).1.setupError = (info.ready rules chosen).1 ∧
      (info.attempt rules chosen).1.info.apiKey =
        (chosen.channel.keysAfter rules.toContextReaders chosen.pick
          info.scope.keys).channelKey := by
  have hkey : (info.channelMeta rules chosen).apiKey =
      (chosen.channel.keysAfter rules.toContextReaders chosen.pick info.scope.keys).channelKey :=
    congrArg KeyScope.channelKey (ready_spec rules info chosen).2.2.2
  rcases attempt_cases rules info chosen with
    ⟨map, model, origin', isModelMapped, -, -, -, heq, -⟩ | ⟨-, heq⟩
  · rw [heq]
    exact ⟨rfl, rfl, hkey⟩
  · rw [heq]
    exact ⟨rfl, rfl, hkey⟩

/-! ### The key of every attempt -/

variable {rules info chosen} in
theorem enabledKey_of_ready (hready : (info.ready rules chosen).1 = none)
    (hmulti : chosen.channel.channelInfo.isMultiKey = true) :
    chosen.channel.EnabledKey rules.jsonArray (info.attempt rules chosen).1.info.apiKey := by
  rw [(attempt_frame rules info chosen).2.2]
  unfold ready setupContextForSelectedChannel at hready
  unfold RoutedChannel.keysAfter
  cases hpick : rules.toContextReaders.pickKey chosen.channel chosen.pick with
  | error e =>
    simp only [hpick] at hready
    cases hready
  | ok picked => exact Channel.enabledKey_of_pick hmulti hpick

theorem retries_enabled (retries : List ChosenChannel) :
    ∀ a ∈ info.attempts rules false retries, a.channel.channelInfo.isMultiKey = true →
      a.channel.EnabledKey rules.jsonArray a.info.apiKey := by
  induction retries generalizing info with
  | nil =>
    intro a ha
    cases ha
  | cons chosen rest ih =>
    intro a ha hmulti
    obtain ⟨hchannel, herror, -⟩ := attempt_frame rules info chosen
    rw [attempts] at ha
    split at ha
    · cases ha
    · rename_i hends
      rcases List.mem_cons.mp ha with rfl | ha
      · have hready : (info.ready rules chosen).1 = none := by
          rw [← herror, ← not_isSome_iff_eq_none]
          exact fun hsome => hends ⟨hsome, rfl⟩
        rw [hchannel] at hmulti ⊢
        exact enabledKey_of_ready hready hmulti
      · exact ih _ a ha hmulti

theorem first_enabled_iff (model : String) :
    (chosen.channel.channelInfo.isMultiKey = true → chosen.channel.EnabledKey rules.jsonArray
        ((start rules model).attempt rules chosen).1.info.apiKey) ↔
      chosen.KeyKnown rules.jsonArray := by
  unfold ChosenChannel.KeyKnown
  refine imp_congr_right fun hmulti => ?_
  have hiff := @Channel.pick_isOk_iff rules.jsonArray chosen.channel.toChannel hmulti rules.tokenId
    chosen.pick
  rw [(attempt_frame rules _ chosen).2.2]
  unfold RoutedChannel.keysAfter ContextReaders.pickKey
  cases hpick : (chosen.channel.getNextEnabledKeyWithHint rules.jsonArray rules.tokenId
      chosen.pick).1 with
  | error e =>
    -- the key of the context that nothing was written to
    have hno : ¬ ((∃ key, chosen.channel.EnabledKey rules.jsonArray key) ∧
        chosen.channel.TurnKnown chosen.pick) := by
      rw [← hiff, hpick]
      rintro ⟨key, idx, hok⟩
      cases hok
    constructor
    · intro hkey
      exact ⟨⟨_, hkey⟩, .inr hkey⟩
    · rintro ⟨hexists, hturn | hempty⟩
      · exact absurd ⟨hexists, hturn⟩ hno
      · exact hempty
  | ok picked =>
    have hok := hiff.mp ⟨picked.1, picked.2, hpick⟩
    exact iff_of_true (Channel.enabledKey_of_pick hmulti hpick) ⟨hok.1, .inl hok.2⟩

/-- **Every attempt that reaches upstream through a multi-key channel uses one of its enabled keys**
iff the first attempt could pick a key, or does not reach upstream. -/
theorem attempt_keys_enabled_iff (rules : AttemptRules Setting Other Override)
    (model : String) (first : ChosenChannel) (retries : List ChosenChannel) :
    (∀ a ∈ (start rules model).attempts rules true (first :: retries),
        a.sent ≠ none ∧ rules.dials a.info = true → a.channel.channelInfo.isMultiKey = true →
          a.channel.EnabledKey rules.jsonArray a.info.apiKey) ↔
      ((start rules model).Reaches rules first → first.KeyKnown rules.jsonArray) := by
  have hattempts : (start rules model).attempts rules true (first :: retries) =
      ((start rules model).attempt rules first).1 ::
        ((start rules model).attempt rules first).2.attempts rules false retries := by
    rw [attempts, if_neg fun h => by cases h.2]
  obtain ⟨hchannel, -, -⟩ := attempt_frame rules (start rules model) first
  have hfirst := first_enabled_iff rules first model
  rw [hattempts, List.forall_mem_cons, sent_ne_none_iff, hchannel, hfirst]
  refine and_iff_left fun a ha _ => ?_
  exact retries_enabled rules _ retries a ha

/-! ### The model name of every attempt -/

variable {rules info} in
theorem sent_congr {info' : AttemptInfo Setting Other Override}
    (h : mappingModelName rules.isResponsesCompact info.originModelName =
      mappingModelName rules.isResponsesCompact info'.originModelName) :
    (info.attempt rules chosen).1.sent = (info'.attempt rules chosen).1.sent := by
  have hsends : info.Sends rules chosen.channel ↔ info'.Sends rules chosen.channel := by
    unfold Sends
    rw [h]
  rcases attempt_cases rules info chosen with
    ⟨map, model, _, _, hyes, hmap, hend, heq, -⟩ | ⟨hno, heq⟩
  · rcases attempt_cases rules info' chosen with
      ⟨map', model', _, _, -, hmap', hend', heq', -⟩ | ⟨hno', -⟩
    · obtain rfl : map = map' := some.inj (hmap.symm.trans hmap')
      rw [h] at hend
      rw [heq, heq', hend.unique hend']
    · exact absurd (hsends.mp hyes) hno'
  · rcases attempt_cases rules info' chosen with ⟨_, _, _, _, hyes', -⟩ | ⟨-, heq'⟩
    · exact absurd (hsends.mpr hyes') hno
    · rw [heq, heq']
      rfl

def unmappedChannel : ChosenChannel where
  channel := { id := 1, key := "", status := enabled, type := 1 }
  pick := ⟨0, .ok 0⟩

theorem sent_unmappedChannel : (info.attempt rules unmappedChannel).1.sent =
      some (mappingModelName rules.isResponsesCompact info.originModelName) := by
  have hmap : channelMap rules.readMap unmappedChannel.channel.getModelMapping = some [] :=
    if_pos (.inl rfl)
  have hend : ChainEnd (ModelMap.target [])
      (mappingModelName rules.isResponsesCompact info.originModelName)
      (mappingModelName rules.isResponsesCompact info.originModelName) :=
    ⟨.refl, fun y hy => by cases hy⟩
  rcases attempt_cases rules info unmappedChannel with
    ⟨map, model, _, _, -, hmap', hend', heq, -⟩ | ⟨hno, -⟩
  · obtain rfl : map = [] := some.inj (hmap'.symm.trans hmap)
    rw [heq, hend'.unique hend]
  · exact absurd ⟨fun _ => by decide, [], _, hmap, hend⟩ hno

theorem mappingModelName_attempt_iff :
    mappingModelName rules.isResponsesCompact (info.attempt rules chosen).2.originModelName =
        mappingModelName rules.isResponsesCompact info.originModelName ↔
      info.KeepsModel rules chosen := by
  unfold KeepsModel
  cases hcompact : rules.isResponsesCompact with
  | false =>
    refine iff_of_true ?_ fun h => by cases h
    rcases attempt_cases rules info chosen with
      ⟨_, _, origin', _, -, -, -, heq, hnext⟩ | ⟨-, heq⟩
    · rw [heq]
      rw [hcompact] at hnext
      exact hnext
    · rw [heq]
      rfl
  | true =>
    rcases attempt_cases rules info chosen with
      ⟨map, model, origin', _, hsends, hmap, hend, heq, hnext⟩ | ⟨hno, heq⟩
    · rw [hcompact] at hnext hend
      rw [heq]
      constructor
      · intro hsame _ _ map' model' hmap' hend'
        obtain rfl : map = map' := some.inj (hmap.symm.trans hmap')
        obtain rfl : model = model' := hend.unique hend'
        exact hnext.symm.trans hsame
      · intro hkeeps
        exact hnext.trans (hkeeps rfl (hsends.1 hcompact) map model hmap hend)
    · rw [heq]
      refine iff_of_true rfl fun _ htype map model hmap hend => ?_
      refine absurd ⟨fun _ => htype, map, model, hmap, ?_⟩ hno
      rw [hcompact]
      exact hend

end

/-- **The name that is sent does not depend on the channels that were tried before**, iff none of
them maps a compaction request to another model. -/
theorem sent_model_independent_iff (rules : AttemptRules Setting Other Override)
    (model : String) (tried : List ChosenChannel) :
    Always (fun info => ∀ b : ChosenChannel, (info.attempt rules b).1.sent =
          ((start rules model).attempt rules b).1.sent)
        (fun info a => (info.attempt rules a).2) (start rules model) tried ↔
      AllSteps (KeepsModel rules) (fun info a => (info.attempt rules a).2)
        (start rules model) tried := by
  -- the names are the same for all channels iff the mapping is followed from the same name
  have hsame : ∀ info : AttemptInfo Setting Other Override,
      (∀ b, (info.attempt rules b).1.sent =
        ((start rules model).attempt rules b).1.sent) ↔
      mappingModelName rules.isResponsesCompact info.originModelName =
        mappingModelName rules.isResponsesCompact
          (start rules model).originModelName := by
    intro info
    constructor
    · intro h
      have hplain := h unmappedChannel
      rw [sent_unmappedChannel, sent_unmappedChannel] at hplain
      exact some.inj hplain
    · exact fun h b => sent_congr b h
  refine always_iff_allSteps (I := fun _ => True) (A := fun _ _ => True) ?_
    (fun _ _ _ _ _ _ => trivial) trivial (fun _ => rfl)
    (allSteps_of_forall (fun _ _ => trivial) _ tried)
  intro info a _ hP _
  rw [hsame, ← (hsame info).mp hP]
  exact mappingModelName_attempt_iff rules info a

/-! ### Runs that go wrong -/

/-- Zhipu v4, VolcEngine and MiniMax send chat requests to an address of their own. -/
def ownAddresses : List Int := [10, 23, 32]

def plainRules (isResponsesCompact : Bool) : AttemptRules Unit Unit Unit where
  toContextReaders := plainReaders
  readMap := fun text => if text = "names" then some [("large", "small")] else none
  isResponsesCompact := isResponsesCompact
  apiVersionQuery := ""
  dials info := info.channelBaseUrl ≠ "" ∨ info.apiType ∈ ownAddresses

def disabledKeysChannel : ChosenChannel where
  channel :=
    { id := 1, key := "a\nb", status := enabled, type := 45
      channelInfo :=
        { isMultiKey := true, multiKeySize := 2
          multiKeyStatusList := some ((Table.singleton (0, manuallyDisabled)).put
            (1, manuallyDisabled)) } }
  pick := ⟨0, .ok 0⟩

/-- **No key is enabled, and the first attempt is made** with the empty key. -/
theorem attempt_without_key : (disabledKeysChannel.channel.enabledIdx fun _ => none) = [] ∧
      ((start (plainRules false) "large").attempts (plainRules false) true
          [disabledKeysChannel]).map (fun a => (a.sent, (plainRules false).dials a.info,
            a.info.apiKey)) = [(some "large", true, "")] := by
  decide +kernel

def mappingChannel : ChosenChannel where
  channel :=
    { id := 2, key := "k", status := enabled, type := 1
      modelMapping := some "names" }
  pick := ⟨0, .ok 0⟩

/-- **A compaction request is retried without a mapping**, and the name of the first channel's
mapping is sent. -/
theorem sent_model_inherited : ((start (plainRules true) "large").attempts (plainRules true) true
        [unmappedChannel]).map (fun a => a.sent) = [some "large"] ∧
      ((start (plainRules true) "large").attempts (plainRules true) true
        [mappingChannel, unmappedChannel]).map (fun a => a.sent) =
        [some "small", some "small"] := by
  decide +kernel

end NomoApi
