import RemoteDeviceConsole.Server.EventLoop
import RemoteDeviceConsole.Framing.TopicFilter

/-!
# The topics of the bridge

`status_topic` writes the device id into the topic as it is, and the topic is passed as a C
string.  An id may have any byte but a space and a newline, so it may have a separator, a
wildcard or a zero byte.  `topics_confined_iff` says that the topics are what the bridge announces,
`devices/{id}/status` with the id as one level and one topic for each device, exactly for
the ids without these four bytes.

A topic that goes astray may be the topic of another device, or a command topic.

The zero byte is the one that breaks the second half: behind it the C string ends, so all ids
with the same text in front of it share one topic, and the word `status` is cut off as well.
The other three leave the topics of different devices different, but add a level, or make the
topic a filter.
-/

namespace RemoteDeviceConsole

open Framing

def slash : UInt8 := 47

def hashSign : UInt8 := 35

/-- The broker's test of a topic against a filter. -/
def TopicMatches (filter topic : Bytes) : Prop :=
  matchesLevels plusSign hashSign (levels slash filter) (levels slash topic) = true

instance (filter topic : Bytes) : Decidable (TopicMatches filter topic) :=
  inferInstanceAs (Decidable (_ = true))

/-- An id without separators, wildcards and zero bytes. -/
def PlainId (deviceId : Bytes) : Prop :=
  slash ∉ deviceId ∧ plusSign ∉ deviceId ∧ hashSign ∉ deviceId ∧ 0 ∉ deviceId

instance (deviceId : Bytes) : Decidable (PlainId deviceId) :=
  inferInstanceAs (Decidable (_ ∧ _))

/-- The topic is the status topic of this device and of no other kind. -/
structure Confined (deviceId topic : Bytes) : Prop where
  eq : topic = ascii "devices/" ++ deviceId ++ ascii "/status"
  levels_eq : levels slash topic = [ascii "devices", deviceId, ascii "status"]
  ne_nil : deviceId ≠ []
  statusFilter : TopicMatches (ascii "devices/+/status") topic
  noWildcard : plusSign ∉ topic ∧ hashSign ∉ topic
  notCommand : ¬ TopicMatches commandFilter topic

/-- What the topic of a line is: the server cuts the line from its buffer, accepts it, and
the bridge publishes it. -/
def PublishedUnder (D : Type) [CharconvDouble D] (line deviceId topic : Bytes) : Prop :=
  ∃ (inputBuffer rest payload : Bytes) (status : DeviceStatus D),
    takeNextLine inputBuffer = some (line, rest) ∧ parseStatusLine line = some status ∧
      status.deviceId = deviceId ∧ (MqttBridge.mk true).publishStatus status = some ⟨topic, payload⟩

/-! ## C strings -/

theorem zero_notMem_cString (text : Bytes) : 0 ∉ cString text := fun h => by
  simpa using List.mem_takeWhile_imp h

theorem cString_eq_self_iff {text : Bytes} : cString text = text ↔ 0 ∉ text := by
  rw [cString, List.takeWhile_eq_self_iff]
  constructor
  · exact fun h hzero => by simpa using h 0 hzero
  · intro h b hb
    simpa using fun hzero : b = 0 => h (hzero ▸ hb)

/-! ## Topics -/

theorem topic_eq (deviceId : Bytes) :
    ascii "devices/" ++ deviceId ++ ascii "/status" =
      ascii "devices" ++ slash :: (deviceId ++ slash :: ascii "status") := by
  have hfront : ascii "devices/" = ascii "devices" ++ [slash] := by decide +kernel
  have hback : ascii "/status" = slash :: ascii "status" := by decide +kernel
  rw [hfront, hback]
  simp

/-- The bytes of a topic are those of the id and no special ones. -/
theorem mem_topic_iff {deviceId : Bytes} {b : UInt8} (hb : b = plusSign ∨ b = hashSign ∨ b = 0) :
    b ∈ ascii "devices/" ++ deviceId ++ ascii "/status" ↔ b ∈ deviceId := by
  have hfixed : b ∉ ascii "devices/" ∧ b ∉ ascii "/status" := by
    rcases hb with rfl | rfl | rfl <;> decide +kernel
  rw [List.mem_append, List.mem_append]
  simp [hfixed]

theorem levels_topic {deviceId : Bytes} (h : slash ∉ deviceId) :
    levels slash (ascii "devices/" ++ deviceId ++ ascii "/status") =
      [ascii "devices", deviceId, ascii "status"] := by
  rw [topic_eq, levels_three (by decide +kernel) h (by decide +kernel)]

/-- A topic of three levels is no command topic. -/
theorem not_topicMatches_commandFilter {topic a b c : Bytes} (h : levels slash topic = [a, b, c]) :
    ¬ TopicMatches commandFilter topic := by
  have hfilter : levels slash commandFilter =
      [ascii "devices", [plusSign], ascii "commands", ascii "reset"] := by decide +kernel
  have hrest : [hashSign] ∉ ([ascii "devices", [plusSign], ascii "commands", ascii "reset"] :
      List Bytes) := by decide +kernel
  rw [TopicMatches, hfilter, matchesLevels_iff hrest, h]
  intro hmatch
  exact absurd hmatch.length_eq (by simp)

theorem topicMatches_statusFilter {topic deviceId : Bytes}
    (h : levels slash topic = [ascii "devices", deviceId, ascii "status"]) :
    TopicMatches (ascii "devices/+/status") topic := by
  have hfilter : levels slash (ascii "devices/+/status") =
      [ascii "devices", [plusSign], ascii "status"] := by decide +kernel
  have hrest : [hashSign] ∉ ([ascii "devices", [plusSign], ascii "status"] : List Bytes) := by
    decide +kernel
  rw [TopicMatches, hfilter, matchesLevels_iff hrest, h]
  exact .cons (.inr rfl) (.cons (.inl rfl) (.cons (.inr rfl) .nil))

variable {D : Type} [CharconvDouble D]

theorem PublishedUnder.topic_eq {line deviceId topic : Bytes}
    (h : PublishedUnder D line deviceId topic) :
    deviceId ≠ [] ∧ topic = cString (ascii "devices/" ++ deviceId ++ ascii "/status") := by
  obtain ⟨inputBuffer, rest, payload, status, -, hparse, rfl, hpublish⟩ := h
  rw [MqttBridge.publishStatus, if_pos rfl, Option.some.injEq, Publication.mk.injEq] at hpublish
  obtain ⟨-, -, -, -, hne⟩ := exists_tokens_of_parseStatusLine hparse
  exact ⟨hne, hpublish.1.symm⟩

/-- The topic of an id without special bytes. -/
theorem PublishedUnder.eq_of_plainId {line deviceId topic : Bytes}
    (h : PublishedUnder D line deviceId topic) (hplain : PlainId deviceId) :
    topic = ascii "devices/" ++ deviceId ++ ascii "/status" := by
  obtain ⟨-, -, -, hzero⟩ := hplain
  rw [h.topic_eq.2, cString_eq_self_iff, mem_topic_iff (.inr (.inr rfl))]
  exact hzero

theorem PublishedUnder.confined_iff {line deviceId topic : Bytes}
    (h : PublishedUnder D line deviceId topic) : Confined deviceId topic ↔ PlainId deviceId := by
  constructor
  · intro hconfined
    have hzero : 0 ∉ topic := h.topic_eq.2 ▸ zero_notMem_cString _
    have hslash : slash ∉ deviceId :=
      @notMem_of_mem_levels _ _ _ _ topic (by rw [hconfined.levels_eq]; simp)
    have hspecial := hconfined.noWildcard
    rw [hconfined.eq, mem_topic_iff (.inl rfl), mem_topic_iff (.inr (.inl rfl))] at hspecial
    rw [hconfined.eq, mem_topic_iff (.inr (.inr rfl))] at hzero
    exact ⟨hslash, hspecial.1, hspecial.2, hzero⟩
  · intro hplain
    have heq := h.eq_of_plainId hplain
    obtain ⟨hslash, hplus, hhash, -⟩ := hplain
    have hlevels : levels slash topic = [ascii "devices", deviceId, ascii "status"] := by
      rw [heq, levels_topic hslash]
    refine ⟨heq, hlevels, h.topic_eq.1, topicMatches_statusFilter hlevels, ?_,
      not_topicMatches_commandFilter hlevels⟩
    rw [heq, mem_topic_iff (.inl rfl), mem_topic_iff (.inr (.inl rfl))]
    exact ⟨hplus, hhash⟩

variable (D) in
/-- **The topics are confined exactly for the ids without separators, wildcards and zero
bytes.**  A topic is the status topic of its device when the id is plain and only then, and
two devices have their topics for themselves when both ids are plain. -/
theorem topics_confined_iff :
    (∀ line deviceId topic, PublishedUnder D line deviceId topic →
      (Confined deviceId topic ↔ PlainId deviceId)) ∧
    ∀ line deviceId topic line' deviceId' topic', PublishedUnder D line deviceId topic →
      PublishedUnder D line' deviceId' topic' →
      ((Confined deviceId topic ∧ Confined deviceId' topic' ∧
        (deviceId ≠ deviceId' → topic ≠ topic')) ↔ PlainId deviceId ∧ PlainId deviceId') := by
  refine ⟨fun line deviceId topic h => h.confined_iff, ?_⟩
  intro line deviceId topic line' deviceId' topic' h h'
  rw [h.confined_iff, h'.confined_iff]
  refine ⟨fun hall => ⟨hall.1, hall.2.1⟩, fun hplain => ⟨hplain.1, hplain.2, fun hne heq => ?_⟩⟩
  rw [h.eq_of_plainId hplain.1, h'.eq_of_plainId hplain.2, List.append_cancel_right_eq,
    List.append_cancel_left_eq] at heq
  exact hne heq

/-! ## Topics that go astray -/

/-- A line for an id that has an ending of its own and then a zero byte. -/
def strayLine (deviceId : String) : Bytes :=
  ascii "STATUS device_id=" ++ ascii deviceId ++ 0 :: ascii " state=OK" ++ [newline]

def plainLine (deviceId : String) : Bytes :=
  ascii "STATUS device_id=" ++ ascii deviceId ++ ascii " state=OK" ++ [newline]

/-- A line, cut and parsed, and its topic. -/
def publishedId (line : Bytes) : Option (Bytes × Bytes) := do
  let (line, _) ← takeNextLine line
  let status ← (parseStatusLine line : Option (DeviceStatus ℤ))
  let publication ← (MqttBridge.mk true).publishStatus status
  return (status.deviceId, publication.topic)

theorem publishedUnder_of_publishedId {line deviceId topic : Bytes} (hline : IsFrame newline line)
    (h : publishedId line = some (deviceId, topic)) : PublishedUnder ℤ line deviceId topic := by
  have hcut : takeNextLine line = some (line, []) := by
    rw [takeNextLine, cutFrame_eq_some]
    exact ⟨hline, by simp⟩
  simp only [publishedId, hcut, Option.bind_eq_bind, Option.bind_some, Option.bind_eq_some_iff,
    Option.pure_def, Option.some.injEq, Prod.mk.injEq] at h
  obtain ⟨status, hparse, ⟨topic', payload⟩, hpublish, hid, rfl⟩ := h
  exact ⟨line, [], payload, status, hcut, hparse, hid, hpublish⟩

/-- One status line is published under the command topic of `r1`, and the status of one
device under the topic of another. -/
theorem stray_topics :
    (PublishedUnder ℤ (strayLine "r1/commands/reset") (ascii "r1/commands/reset" ++ [0])
        (ascii "devices/r1/commands/reset") ∧
      TopicMatches commandFilter (ascii "devices/r1/commands/reset") ∧
      ¬ Confined (ascii "r1/commands/reset" ++ [0]) (ascii "devices/r1/commands/reset")) ∧
    PublishedUnder ℤ (strayLine "r1/status") (ascii "r1/status" ++ [0])
        (ascii "devices/r1/status") ∧
      PublishedUnder ℤ (plainLine "r1") (ascii "r1") (ascii "devices/r1/status") ∧
      ascii "r1/status" ++ [0] ≠ ascii "r1" := by
  have hcommand : TopicMatches commandFilter (ascii "devices/r1/commands/reset") := by
    decide +kernel
  refine ⟨⟨publishedUnder_of_publishedId ⟨_, ?_, rfl⟩ ?_, hcommand, fun h => h.notCommand hcommand⟩,
    publishedUnder_of_publishedId ⟨_, ?_, rfl⟩ ?_, publishedUnder_of_publishedId ⟨_, ?_, rfl⟩ ?_,
    by decide +kernel⟩ <;> decide +kernel

/-- The topics of two plain ids. -/
theorem topics_confined_r1_r2 :
    Confined (ascii "r1") (ascii "devices/r1/status") ∧
      Confined (ascii "r2") (ascii "devices/r2/status") ∧
      (ascii "r1" ≠ ascii "r2" → ascii "devices/r1/status" ≠ ascii "devices/r2/status") :=
  ((topics_confined_iff ℤ).2 (plainLine "r1") _ _ (plainLine "r2") _ _
    (publishedUnder_of_publishedId ⟨_, by decide +kernel, rfl⟩ (by decide +kernel))
    (publishedUnder_of_publishedId ⟨_, by decide +kernel, rfl⟩ (by decide +kernel))).mpr
    (by decide +kernel)

end RemoteDeviceConsole
