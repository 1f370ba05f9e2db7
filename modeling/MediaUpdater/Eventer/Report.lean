import MediaUpdater.Eventer.Request

/-!
# What arrives of a report

A request of `Eventer` is read back by weighing it.  Cutting, percent-decoding and the escapes
of JSON only take weight away, so what arrives as it was sent had nothing in it that could be
taken; and an argument that is written over a place marker takes the weight of the marker
away.

## Main results

* `eventArrives_iff`, `trackArrives_iff` — a request says what it was built from exactly
  when no text has a low place marker and every text stands for itself in JSON and in a query.
-/

namespace MediaUpdater

open Library

namespace Eventer

variable {numbers : QNumbers} {s : Eventer} {boxId type volume : ℤ} {day now : DateTime}
variable {message value track result x : QString}

/-! ### Weights -/

/-- A byte weighs one, and `%` and the backslash weigh `extra` more. -/
def byteWeight (extra : ℕ) : UInt8 → ℕ := markWeight 1 extra ['%', '\\']

variable {extra : ℕ}

theorem byteWeight_le (b : UInt8) : byteWeight extra b ≤ byteWeight extra 37 := by
  have percent : byteWeight extra 37 = 1 + extra := markWeight_of_mem (c := '%') (.head _)
  rw [percent]
  exact markWeight_le b

theorem byteWeight_pos (b : UInt8) : 0 < byteWeight extra b := le_markWeight b

theorem charWeight_mark {c : Char} (mark : c ∈ ['%', '\\']) :
    charWeight (byteWeight extra) c = 1 + extra :=
  charWeight_of_mem (by simp) mark

/-- Every other character weighs as much as it has bytes. -/
theorem charWeight_eq {c : Char} (noPercent : c ≠ '%') (noBackslash : c ≠ '\\') :
    charWeight (byteWeight extra) c = c.utf8Size := by
  rw [byteWeight, charWeight_markWeight (by simp) (by simp [noPercent, noBackslash]), Nat.one_mul]

theorem charWeight_le (extra : ℕ) (c : Char) :
    charWeight (byteWeight extra) c ≤ extra + c.utf8Size := by
  by_cases mark : c ∈ ['%', '\\']
  · have size := c.utf8Size_pos
    rw [charWeight_mark mark]
    omega
  · simp only [List.mem_cons, List.not_mem_nil, or_false, not_or] at mark
    rw [charWeight_eq mark.1 mark.2]
    omega

theorem charWeight_pos (extra : ℕ) (c : Char) : 0 < charWeight (byteWeight extra) c :=
  le_charWeight byteWeight_pos c

/-- The escapes of JSON begin with a backslash. -/
theorem weighs_byteWeight : Json.Weighs (charWeight (byteWeight extra)) where
  positive := charWeight_pos extra
  short e mem := by
    have one : ∀ e ∈ Json.shortEscapes, e.2.utf8Size = 1 := by decide
    have most := charWeight_le extra e.2
    have letter := charWeight_pos extra e.1
    have backslash : charWeight (byteWeight extra) '\\' = 1 + extra := charWeight_mark (by simp)
    rw [one e mem] at most
    omega
  unicode c digits four := by
    have most := charWeight_le extra c
    have size := c.utf8Size_le_four
    have all := length_le_weigh (charWeight_pos extra) digits
    have u := charWeight_pos extra 'u'
    have backslash : charWeight (byteWeight extra) '\\' = 1 + extra := charWeight_mark (by simp)
    omega

/-! ### What arrives of an event -/

/-- The text comes back from the end of a query as a JSON object with the message and the
value. -/
def Carries (x message value : QString) : Prop :=
  ∃ text members, Uri.percentDecode (x.takeWhile Uri.inItem) = utf8 text ∧
    Json.IsText text (.object members) ∧ Json.HasField members (str "msg") (.string message) ∧
    Json.HasField members (str "value") (.string value)

theorem eventArrives_iff_carries (quiet : Quiet s.serverUri (eventPrefix boxId) [str "message"]) :
    EventArrives (s.eventer numbers boxId message value) message value ↔
      Carries (eventJson numbers message value) message value := by
  have sent := Uri.parameter_item (inQuery_event quiet.noFragment) (quiet.fresh _ (by simp))
    (by decide : Uri.Name (str "message")) (eventJson numbers message value)
  unfold EventArrives Carries
  simp only [eventer_eq, sent, Option.some_inj]

/-- **The object that arrives weighs at least as much as its two strings**, and when it was
sent with no more, it was sent as it arrives. -/
theorem Carries.weigh_le (carries : Carries x message value) (extra : ℕ) :
    weigh (charWeight (byteWeight extra))
        (Json.objectText (str "msg") message (str "value") value) ≤
      weigh (charWeight (byteWeight extra)) x ∧
    (weigh (charWeight (byteWeight extra)) x ≤ weigh (charWeight (byteWeight extra))
        (Json.objectText (str "msg") message (str "value") value) →
      Uri.Literal x ∧ Json.Literal message ∧ Json.Literal value ∧
        (x = Json.objectText (str "msg") message (str "value") value ∨
          x = Json.objectText (str "value") value (str "msg") message)) := by
  obtain ⟨text, members, received, isText, msg, val⟩ := carries
  have apart : str "msg" ≠ str "value" := by decide
  have weighs : Json.Weighs (charWeight (byteWeight extra)) := weighs_byteWeight
  have needs := Json.weight_object weighs isText msg.1 val.1 fun same =>
    apart (congrArg Prod.fst same)
  have cut := Uri.weigh_le_of_received (byteWeight extra) byteWeight_le received
  rw [← Json.weigh_objectText] at needs
  refine ⟨needs.trans cut, fun whole => ?_⟩
  obtain ⟨literal, rfl⟩ := Uri.eq_of_received (byteWeight extra) byteWeight_le byteWeight_pos
    received (whole.trans needs)
  obtain ⟨order, first, second⟩ := Json.eq_objectText_of_weight_le weighs isText msg.1 val.1 apart
    whole
  exact ⟨literal, first, second, order⟩

/-- The JSON text of an event, with the parts that are always in it. -/
theorem objectText_eq : Json.objectText (str "msg") message (str "value") value =
    jsonHead ++ (message ++ '"' :: (str ",\"value\":\"" ++ (value ++ str "\"\x7d"))) := by
  simp [Json.objectText, Json.quoted, jsonHead, str]

theorem weigh_jsonHead : weigh (charWeight (byteWeight extra)) jsonHead = 8 := rfl

theorem weigh_jsonTail : weigh (charWeight (byteWeight extra)) jsonTail = extra + 15 := by
  have split : jsonTail = str "\",\"value\":\"" ++ '%' :: str "2\"\x7d" := rfl
  have percent : charWeight (byteWeight extra) '%' = 1 + extra := charWeight_mark (by simp)
  have front : weigh (charWeight (byteWeight extra)) (str "\",\"value\":\"") = 11 := rfl
  have behind : weigh (charWeight (byteWeight extra)) (str "2\"\x7d") = 3 := rfl
  rw [split, weigh_append, weigh_cons, percent, front, behind]
  omega

theorem weigh_objectText : weigh (charWeight (byteWeight extra))
      (Json.objectText (str "msg") message (str "value") value) =
    weigh (charWeight (byteWeight extra)) message +
      weigh (charWeight (byteWeight extra)) value + 21 := by
  have quote : charWeight (byteWeight extra) '"' = 1 := rfl
  have inner : weigh (charWeight (byteWeight extra)) (str ",\"value\":\"") = 10 := rfl
  have ends : weigh (charWeight (byteWeight extra)) (str "\"\x7d") = 2 := rfl
  rw [objectText_eq, weigh_append, weigh_append, weigh_cons, weigh_append, weigh_append,
    weigh_jsonHead, quote, inner, ends]
  omega

/-- It is literal when both strings are. -/
theorem literal_objectText :
    Uri.Literal (Json.objectText (str "msg") message (str "value") value) ↔
      Uri.Literal message ∧ Uri.Literal value := by
  have quote (t : QString) : ∀ c ∈ ('"' :: t).head?, hexDigit? c = none := by
    rintro c ⟨⟩
    rfl
  have ends : Uri.Literal (str "\"\x7d") := by decide
  have behind : Uri.Literal (value ++ str "\"\x7d") ↔ Uri.Literal value :=
    (Uri.literal_append (quote (str "\x7d"))).trans (and_iff_left ends)
  rw [objectText_eq, Uri.literal_of_no_percent (by decide) (by simp [jsonHead, str, Uri.inItem]),
    Uri.literal_append (quote _), ← List.cons_append,
    Uri.literal_of_no_percent (by simp [str]) (by simp [str, Uri.inItem]), behind]

/-- **Without low place markers** the object arrives exactly when both texts are plain. -/
theorem carries_objectText_iff :
    Carries (Json.objectText (str "msg") message (str "value") value) message value ↔
      PlainText message ∧ PlainText value := by
  constructor
  · intro carries
    obtain ⟨literal, first, second, -⟩ := (carries.weigh_le 0).2 le_rfl
    obtain ⟨first', second'⟩ := literal_objectText.mp literal
    exact ⟨⟨first, first'⟩, second, second'⟩
  · rintro ⟨⟨first, first'⟩, second, second'⟩
    have literal := literal_objectText.mpr ⟨first', second'⟩
    have apart : str "msg" ≠ str "value" := by decide
    refine ⟨_, _, Uri.percentDecode_takeWhile_eq_iff.mpr literal,
      Json.isText_objectText (by decide) first (by decide) second, ?_, ?_⟩
    · exact ⟨by simp, fun other mem => by simpa [apart] using mem⟩
    · exact ⟨by simp, fun other mem => by simpa [apart.symm] using mem⟩

/-- The place marker of the value is left over behind the message. -/
theorem append_marker_ne {p q : QString} (noPercent : '%' ∉ value) :
    p ++ str "%2" ≠ q ++ '"' :: value := by
  intro same
  rcases List.eq_nil_or_concat value with rfl | ⟨u, c, rfl⟩
  · have last := congrArg List.getLast? same
    simp [str] at last
  · have inner : p ++ ['%'] ++ ['2'] = q ++ '"' :: u ++ [c] := by simpa [str] using same
    have rest := (List.append_inj' inner rfl).1
    rcases List.eq_nil_or_concat u with rfl | ⟨u', c', rfl⟩
    · have last := congrArg List.getLast? rest
      simp at last
    · have inner' : p ++ ['%'] = q ++ '"' :: u' ++ [c'] := by simpa using rest
      have last := (List.append_inj' inner' rfl).2
      simp_all

theorem weigh_eq_size (noPercent : '%' ∉ value) (noBackslash : '\\' ∉ value) :
    weigh (charWeight (byteWeight extra)) value = weigh Char.utf8Size value :=
  weigh_congr fun _ mem => charWeight_eq (fun same => noPercent (same ▸ mem))
    fun same => noBackslash (same ▸ mem)

/-- **A message with a low place marker does not arrive**, unless the value has something in
it that could be taken for an escape or a marker. -/
theorem not_carries_eventJson (low : ¬ QString.Clear numbers 2 message) (noPercent : '%' ∉ value)
    (noBackslash : '\\' ∉ value) : ¬ Carries (eventJson numbers message value) message value := by
  intro carries
  -- with this weight a marker outweighs the value that is written over it
  obtain ⟨extra, size⟩ : ∃ extra, weigh (charWeight (byteWeight extra)) value = extra :=
    ⟨_, weigh_eq_size noPercent noBackslash⟩
  have percent : charWeight (byteWeight extra) '%' = 1 + extra := charWeight_mark (by simp)
  have light : QString.Light numbers (charWeight (byteWeight extra)) 2 value value :=
    QString.light_of_weigh (charWeight_pos extra) (by omega) (by omega)
  obtain ⟨k, occurs, put⟩ := eventJson_low value low
  have less : weigh (charWeight (byteWeight extra))
      (QString.replaceArgEscapes numbers k value value message) + 2 ≤
        weigh (charWeight (byteWeight extra)) message := weigh_rewrite_add_le (light k) occurs
  have tail : weigh (charWeight (byteWeight extra))
      (QString.replaceArgEscapes numbers k value value jsonTail) ≤
        weigh (charWeight (byteWeight extra)) jsonTail := weigh_rewrite_le (light k) 0
  obtain ⟨needs, tight⟩ := carries.weigh_le extra
  rw [put, weigh_objectText, size] at needs tight
  rw [weigh_jsonTail] at tail
  simp only [weigh_append, weigh_jsonHead] at needs tight
  -- so nothing is taken away but the marker, and the text is the object itself
  have kept : QString.replaceArgEscapes numbers k value value jsonTail = jsonTail := by
    refine QString.replaceArgEscapes_eq_of_weigh light two_pos ?_
    rw [weigh_jsonTail]
    omega
  obtain ⟨-, -, -, order⟩ := tight (by omega)
  rw [kept] at order
  rcases order with same | swapped
  · rw [objectText_eq] at same
    have behind : jsonHead ++ QString.replaceArgEscapes numbers k value value message ++
        str "\",\"value\":\"" ++ str "%2" ++ str "\"\x7d" =
        jsonHead ++ message ++ str "\",\"value\":" ++ '"' :: value ++ str "\"\x7d" := by
      simpa [jsonTail, str] using same
    exact append_marker_ne noPercent (List.append_cancel_right behind)
  · have third := congrArg (List.take 3) swapped
    simp [Json.objectText, Json.quoted, jsonHead, str] at third

/-- **When an event arrives.**  A value that has nothing in it that could be taken for an
escape or a marker settles the case of a message with a low marker, too. -/
theorem eventArrives_iff (quiet : Quiet s.serverUri (eventPrefix boxId) [str "message"])
    (settled : QString.Clear numbers 2 message ∨ '%' ∉ value ∧ '\\' ∉ value) :
    EventArrives (s.eventer numbers boxId message value) message value ↔
      QString.Clear numbers 2 message ∧ PlainText message ∧ PlainText value := by
  rw [eventArrives_iff_carries quiet]
  by_cases clear : QString.Clear numbers 2 message
  · rw [eventJson_eq clear, carries_objectText_iff, and_iff_right clear]
  · obtain ⟨noPercent, noBackslash⟩ := settled.resolve_left clear
    exact iff_of_false (not_carries_eventJson clear noPercent noBackslash) fun all => clear all.1

/-! ### What arrives of a track -/

/-- Only `%` weighs anything. -/
def percentWeight : UInt8 → ℕ := markWeight 0 1 ['%']

theorem percentWeight_le (b : UInt8) : percentWeight b ≤ percentWeight 37 := by
  have percent : percentWeight 37 = 0 + 1 := markWeight_of_mem (c := '%') (.head _)
  rw [percent]
  exact markWeight_le b

/-- The argument takes a `%` away, wherever it is put in. -/
theorem light_of_no_percent {a localized : QString} (noPercent : '%' ∉ a)
    (noPercent' : '%' ∉ localized) :
    QString.Light numbers (charWeight percentWeight) 1 a localized := by
  have weightless {a : QString} (noPercent : '%' ∉ a) : weigh (charWeight percentWeight) a = 0 := by
    have none : ∀ c ∈ a, charWeight percentWeight c = 0 := by
      intro c mem
      have other : c ≠ '%' := fun same => noPercent (same ▸ mem)
      rw [percentWeight, charWeight_markWeight (by simp) (by simpa using other), Nat.zero_mul]
    rw [weigh_const none, Nat.zero_mul]
  have percent : charWeight percentWeight '%' = 0 + 1 := charWeight_of_mem (by simp) (by simp)
  have atLeast : ∀ c, 0 ≤ charWeight percentWeight c := fun c => Nat.zero_le _
  exact QString.light_of_weigh atLeast (by rw [weightless noPercent, percent])
    (by rw [weightless noPercent', percent])

theorem light_number {n : ℤ} : '%' ∉ number n ∧
    QString.Light numbers (charWeight percentWeight) 1 (number n) (numbers.localized n) :=
  have noPercent : '%' ∉ number n := notMem_number rfl (by decide)
  ⟨noPercent, light_of_no_percent noPercent (numbers.localized_no_percent n)⟩

theorem TrackArrives.texts {uri : QString} (arrives : TrackArrives uri track type result volume) :
    Uri.parameter uri (str "track") = some (utf8 track) ∧
      Uri.parameter uri (str "result") = some (utf8 result) :=
  ⟨arrives _ (.head _), arrives _ (.tail _ (.tail _ (.head _)))⟩

/-- A track with a low place marker loses a `%`, when no later argument brings one. -/
theorem monitoring_low_track (low : ¬ QString.Clear numbers 7 track) (noPercent : '%' ∉ result) :
    ∃ t rest, s.monitoring numbers day now boxId track type result volume =
        s.serverUri ++ trackPrefix day now boxId ++ (Uri.item (str "track") t ++ '&' :: rest) ∧
      weigh (charWeight percentWeight) t < weigh (charWeight percentWeight) track := by
  have ends : QString.Separator (str "&mfz=0") := by decide
  have light : ∀ a ∈ laterArgs numbers type result volume,
      '%' ∉ a.1 ∧ QString.Light numbers (charWeight percentWeight) 1 a.1 a.2 := by
    intro a mem
    simp only [laterArgs, List.mem_cons, List.not_mem_nil, or_false] at mem
    rcases mem with rfl | rfl | rfl
    · exact light_number
    · exact ⟨noPercent, light_of_no_percent noPercent noPercent⟩
    · exact light_number
  obtain ⟨t, rest, put, less⟩ := QString.foldl_low (x := trackPrefix day now boxId)
    (w := str "&track=") (c := '&') (s := []) (t := track) numbers 5 7
    [str "mtype=", str "&result=", str "&volume="] (laterArgs numbers type result volume)
    (str "&mfz=0") rfl (by decide) ends.follows rfl (by decide) light notMem_trackPrefix (by decide)
    (by decide) low (by simp)
  refine ⟨t, rest, ?_, less⟩
  rw [monitoring_eq]
  refine (congrArg (s.serverUri ++ ·) put).trans ?_
  simp [Uri.item, str]

/-- Behind a track without one, so does a result. -/
theorem monitoring_low_result (clear : QString.Clear numbers 7 track)
    (low : ¬ QString.Clear numbers 7 result) :
    ∃ t rest, s.monitoring numbers day now boxId track type result volume =
        s.serverUri ++ trackPrefix day now boxId ++ Uri.item (str "track") track ++
          Uri.item (str "mtype") (number type) ++ (Uri.item (str "result") t ++ '&' :: rest) ∧
      weigh (charWeight percentWeight) t < weigh (charWeight percentWeight) result := by
  have ends : QString.Separator (str "&mfz=0") := by decide
  have behind : QString.Follows numbers 7 (QString.format 7 [str "&volume="] (str "&mfz=0")) :=
    QString.follows_format (by decide) ends.follows (by decide)
  have filled := QString.foldl_argLocalized numbers 5 7 [str "&mtype=", str "&result="]
    [(number type, numbers.localized type), (result, result)]
    (QString.format 7 [str "&volume="] (str "&mfz=0")) rfl (by decide) behind (by decide)
    (by decide) (clear_front day now boxId clear) (by simp [clear_number])
  have front : QString.Clear numbers 7
      (trackPrefix day now boxId ++ (str "&track=" ++ track) ++
      (str "&mtype=" ++ number type)) := by
    have separator : QString.Separator (str "&mtype=") := by decide
    rw [QString.clear_append separator.divides]
    refine ⟨clear_front day now boxId clear, fun marker mem => ?_⟩
    rw [QString.markers_of_no_percent separator.no_percent] at mem
    exact clear_number marker mem
  obtain ⟨t, rest, put, less⟩ := QString.argLocalized_low (w := str "&result=") (t := result)
    (c := '&') (y := str "volume=%7&mfz=0") (light_number (n := volume)).2 (by decide) front behind
    (by decide) low
  have args : laterArgs numbers type result volume =
      [(number type, numbers.localized type), (result, result)] ++
        [(number volume, numbers.localized volume)] := rfl
  have group : trackPrefix day now boxId ++ (str "&track=" ++ (track ++ laterFormat)) =
      trackPrefix day now boxId ++ (str "&track=" ++ track) ++
        QString.format 5 [str "&mtype=", str "&result="]
          (QString.format 7 [str "&volume="] (str "&mfz=0")) := by
    simp [laterFormat, QString.format]
  have text : trackPrefix day now boxId ++ (str "&track=" ++ track) ++
      QString.filled [str "&mtype=", str "&result="]
        ([(number type, numbers.localized type), (result, result)].map Prod.fst)
        (QString.format 7 [str "&volume="] (str "&mfz=0")) =
      trackPrefix day now boxId ++ (str "&track=" ++ track) ++ (str "&mtype=" ++ number type) ++
        (str "&result=" ++ (result ++ '&' :: str "volume=%7&mfz=0")) := by
    simp [QString.filled, QString.format, str, Nat.digitChar]
  refine ⟨t, rest, ?_, less⟩
  rw [monitoring_eq, args, List.foldl_append, group, filled, text, List.foldl_cons, List.foldl_nil,
    put]
  simp [Uri.item, str]

/-- **A track with a low place marker does not arrive**, unless the result has a `%`. -/
theorem not_arrives_track (quiet : Quiet s.serverUri (trackPrefix day now boxId)
      ((trackItems track type result volume).map Prod.fst))
    (low : ¬ QString.Clear numbers 7 track) (noPercent : '%' ∉ result) :
    ¬ TrackArrives (s.monitoring numbers day now boxId track type result volume) track type result
      volume := by
  intro arrives
  obtain ⟨t, rest, sent, less⟩ := monitoring_low_track low noPercent
  have received := arrives.texts.1
  rw [sent, Uri.parameter_item_append (inQuery_track day now boxId quiet.noFragment)
    (quiet.fresh _ (by simp [trackItems])) (by decide) (by simp [Uri.inItem]),
    Option.some_inj] at received
  have kept := Uri.weigh_le_of_received percentWeight percentWeight_le received
  omega

/-- **A result with a low place marker does not arrive.** -/
theorem not_arrives_result (quiet : Quiet s.serverUri (trackPrefix day now boxId)
      ((trackItems track type result volume).map Prod.fst)) (clear : QString.Clear numbers 7 track)
    (low : ¬ QString.Clear numbers 7 result) :
    ¬ TrackArrives (s.monitoring numbers day now boxId track type result volume) track type result
      volume := by
  intro arrives
  obtain ⟨t, rest, sent, less⟩ := monitoring_low_result clear low
  obtain ⟨first, third⟩ := arrives.texts
  have fresh : ∀ key ∈ [str "track", str "mtype", str "result", str "volume"],
      Uri.parameter (s.serverUri ++ trackPrefix day now boxId) key = none := quiet.fresh
  have inQuery := inQuery_track day now boxId quiet.noFragment
  have nameTrack : Uri.Name (str "track") := by decide
  have nameType : Uri.Name (str "mtype") := by decide
  -- the track has arrived, so it does not disturb what is behind it
  rw [sent, List.append_assoc, List.append_assoc, Uri.parameter_item_append inQuery
    (fresh _ (by simp)) nameTrack (by simp [Uri.item, Uri.inItem]), Option.some_inj,
    Uri.percentDecode_takeWhile_eq_iff] at first
  have skipped := Uri.parameter_skip inQuery (fresh (str "result") (by simp)) nameTrack (by decide)
    first
  have skipped' := Uri.parameter_skip (inQuery.item nameTrack first) skipped nameType (by decide)
    (literal_number type)
  rw [sent, Uri.parameter_item_append
    ((inQuery.item nameTrack first).item nameType (literal_number type)) skipped' (by decide)
    (by simp [Uri.inItem]), Option.some_inj] at third
  have kept := Uri.weigh_le_of_received percentWeight percentWeight_le third
  omega

/-- **When a track arrives.**  A result without a `%` settles the case of a track with a low
marker, too. -/
theorem trackArrives_iff (quiet : Quiet s.serverUri (trackPrefix day now boxId)
      ((trackItems track type result volume).map Prod.fst))
    (settled : QString.Clear numbers 7 track ∨ '%' ∉ result) :
    TrackArrives (s.monitoring numbers day now boxId track type result volume) track type result
        volume ↔
      (QString.Clear numbers 7 track ∧ QString.Clear numbers 7 result) ∧
        Uri.Literal track ∧ Uri.Literal result := by
  by_cases clear : QString.Clear numbers 7 track
  · by_cases clear' : QString.Clear numbers 7 result
    · have fresh : ∀ i ∈ trackItems track type result volume,
          Uri.parameter (s.serverUri ++ trackPrefix day now boxId) i.1 = none :=
        fun i mem => quiet.fresh _ (List.mem_map_of_mem mem)
      have names : ∀ i ∈ trackItems track type result volume, Uri.Name i.1 := by
        have all : ∀ key ∈ [str "track", str "mtype", str "result", str "volume"],
          Uri.Name key := by
          decide
        simpa [trackItems] using all
      have apart : ((trackItems track type result volume).map fun i => utf8 i.1).Nodup := by
        have keys : ([str "track", str "mtype", str "result", str "volume"].map utf8).Nodup := by
          decide
        exact keys
      have ends : ∀ c ∈ (Uri.item (str "mfz") (str "0")).head?, Uri.inItem c = false := by
        simp [Uri.item, Uri.inItem]
      rw [TrackArrives, monitoring_clear clear clear', and_iff_right ⟨clear, clear'⟩,
        Uri.parameters_iff (inQuery_track day now boxId quiet.noFragment) fresh names apart ends]
      simp [trackItems, literal_number]
    · exact iff_of_false (not_arrives_result quiet clear clear') fun all => clear' all.1.2
  · exact iff_of_false (not_arrives_track quiet clear (settled.resolve_left clear)) fun all =>
      clear all.1.1

/-! ### Reports -/

/-- **When reports arrive.**  The texts are put in without any care, so each of them has to
stand for itself: in a chain of `arg`, in a JSON string and in a query. -/
theorem arrives_iff (numbers : QNumbers) (s : Eventer) (boxId : ℤ) (day now : DateTime) :
    (∀ message value, Quiet s.serverUri (eventPrefix boxId) [str "message"] →
      QString.Clear numbers 2 message ∨ '%' ∉ value ∧ '\\' ∉ value →
      (EventArrives (s.eventer numbers boxId message value) message value ↔
        QString.Clear numbers 2 message ∧ PlainText message ∧ PlainText value)) ∧
    ∀ track type result volume, Quiet s.serverUri (trackPrefix day now boxId)
        ((trackItems track type result volume).map Prod.fst) →
      QString.Clear numbers 7 track ∨ '%' ∉ result →
      (TrackArrives (s.monitoring numbers day now boxId track type result volume) track type result
          volume ↔
        (QString.Clear numbers 7 track ∧ QString.Clear numbers 7 result) ∧
          Uri.Literal track ∧ Uri.Literal result) :=
  ⟨fun _ _ quiet settled => eventArrives_iff quiet settled,
    fun _ _ _ _ quiet settled => trackArrives_iff quiet settled⟩

/-- A reporter that knows its server. -/
def demo : Eventer where
  account := none
  serverUri := str "http://h/"
  retries := 0
  accountFile := ∅
  requests := 1

/-- An event and a track that arrive. -/
theorem arrives_demo :
    EventArrives (demo.eventer .ascii 1 (str "\x7brevision\x7d") (str "5%"))
      (str "\x7brevision\x7d")
      (str "5%") ∧
    TrackArrives (demo.monitoring .ascii ⟨2016, 3, 9, 10, 5, 0⟩ ⟨2016, 3, 9, 10, 5, 1⟩ 1
      (str "a b.mp3") 2 (str "ok") 70) (str "a b.mp3") 2 (str "ok") 70 := by
  have arrives := arrives_iff .ascii demo 1 ⟨2016, 3, 9, 10, 5, 0⟩ ⟨2016, 3, 9, 10, 5, 1⟩
  have noFragment : '#' ∉ demo.serverUri := by decide
  have noQuery : '?' ∉ demo.serverUri := by decide
  exact ⟨(arrives.1 _ _ (quiet_event noFragment noQuery) (.inl (by decide))).mpr (by decide),
    (arrives.2 _ _ _ _ (quiet_track noFragment noQuery) (.inl (by decide))).mpr (by decide)⟩

/-- The event of a download does not arrive when there is an ampersand in the name of the file. -/
theorem arrives_fails : ¬ EventArrives (demo.eventer .ascii 1 (str "\x7bdownload_info\x7d")
      (str "Files left: 1 Current file:rock&roll.mp3"))
    (str "\x7bdownload_info\x7d") (str "Files left: 1 Current file:rock&roll.mp3") := by
  have quiet : Quiet demo.serverUri (eventPrefix 1) [str "message"] :=
    quiet_event (by decide) (by decide)
  have literal : ¬ Uri.Literal (str "Files left: 1 Current file:rock&roll.mp3") := by decide
  rw [eventArrives_iff quiet (.inl (by decide))]
  exact fun all => literal all.2.2.2

end Eventer

end MediaUpdater
