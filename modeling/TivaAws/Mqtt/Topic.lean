import TivaAws.Mqtt.Types

/-!
# Topic filters

`prvGetTopicFilterType` and `prvDoesTopicMatchTopicFilter`, index by index as in the source. Both
loops advance an index in every round, so the length of the filter bounds the number of rounds.
-/

namespace TivaAws.Mqtt

/-- The wild card for one level. -/
def plusSign : UInt8 := '+'.toUInt8

/-- The wild card for all remaining levels. -/
def numberSign : UInt8 := '#'.toUInt8

/-- The separator of levels. -/
def slash : UInt8 := '/'.toUInt8

/-- The loop of `prvGetTopicFilterType` at index `x` with the type found so far. -/
def topicFilterTypeLoop (filter : List UInt8) :
    Nat → Nat → MQTTTopicFilterType → MQTTTopicFilterType
  | 0, _, filterType => filterType
  | rounds + 1, x, filterType =>
      if x < filter.length then
        if filter.getD x 0 = plusSign then
          if x = 0 ∨ filter.getD (x - 1) 0 = slash then
            if x + 1 = filter.length ∨ filter.getD (x + 1) 0 = slash then
              topicFilterTypeLoop filter rounds (x + 1) .wildCard
            else .invalid
          else .invalid
        else if filter.getD x 0 = numberSign then
          if x = 0 ∨ filter.getD (x - 1) 0 = slash then
            if x + 1 = filter.length then .wildCard else .invalid
          else .invalid
        else topicFilterTypeLoop filter rounds (x + 1) filterType
      else filterType

/-- `prvGetTopicFilterType`. -/
def prvGetTopicFilterType (filter : List UInt8) : MQTTTopicFilterType :=
  topicFilterTypeLoop filter filter.length 0 .simple

/-- The index of the next `/` of the topic from `topicIndex` on, or its length. -/
def skipTopicLevel (topic : List UInt8) : Nat → Nat → Nat
  | 0, topicIndex => topicIndex
  | rounds + 1, topicIndex =>
      if topicIndex < topic.length ∧ topic.getD topicIndex 0 ≠ slash then
        skipTopicLevel topic rounds (topicIndex + 1)
      else topicIndex

/-- The loop of `prvDoesTopicMatchTopicFilter`: whether it ended on a match, and both indexes. -/
def topicMatchLoop (topic filter : List UInt8) : Nat → Nat → Nat → Bool × Nat × Nat
  | 0, topicIndex, filterIndex => (false, topicIndex, filterIndex)
  | rounds + 1, topicIndex, filterIndex =>
      if topicIndex < topic.length ∧ filterIndex < filter.length then
        if topic.getD topicIndex 0 = filter.getD filterIndex 0 then
          -- "sport/#" also matches "sport": "#" includes the parent level.
          if topicIndex + 1 = topic.length ∧ filterIndex + 3 = filter.length ∧
              filter.getD (filterIndex + 1) 0 = slash ∧
              filter.getD (filterIndex + 2) 0 = numberSign then
            (true, topicIndex, filterIndex)
          -- "sport/+" also matches "sport/".
          else if topicIndex + 1 = topic.length ∧ filterIndex + 2 = filter.length ∧
              filter.getD (filterIndex + 1) 0 = plusSign then
            (true, topicIndex, filterIndex)
          else topicMatchLoop topic filter rounds (topicIndex + 1) (filterIndex + 1)
        else if filter.getD filterIndex 0 = plusSign then
          topicMatchLoop topic filter rounds
            (skipTopicLevel topic topic.length topicIndex) (filterIndex + 1)
        else if filter.getD filterIndex 0 = numberSign then (true, topicIndex, filterIndex)
        else (false, topicIndex, filterIndex)
      else (false, topicIndex, filterIndex)

/-- `prvDoesTopicMatchTopicFilter`. -/
def prvDoesTopicMatchTopicFilter (topic filter : List UInt8) : Bool :=
  let (matched, topicIndex, filterIndex) := topicMatchLoop topic filter (filter.length + 1) 0 0
  matched ||
    (0 < topicIndex && topic.length ≤ topicIndex &&
      (0 < filterIndex && filter.length ≤ filterIndex))

end TivaAws.Mqtt
