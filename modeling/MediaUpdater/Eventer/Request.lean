import MediaUpdater.Eventer.Eventer
import MediaUpdater.Library.Json
import MediaUpdater.Library.Uri
import MediaUpdater.Qt.Arg

/-!
# The requests of `Eventer`

`eventer` and `monitoring` build their requests with chains of `QString::arg`, and put
texts from outside into JSON and into a query as they are.  Three notations meet in one
text, and none of them is escaped: a place marker in a text takes the place of a later
argument, a quotation mark ends a JSON string, and `&`, `#` and an escaped byte mean something
in a query.

## Main results

* `eventer_eq`, `monitoring_eq` — what the chains make of the fixed arguments.
* `eventJson_eq`, `monitoring_clear` — the requests, for texts without low place markers.
* `eventJson_low` — a message with a low place marker is written over.
-/

namespace MediaUpdater

open Library

/-- What `QDateTime::currentDateTime` has of a date and a time. -/
structure DateTime where
  year : ℕ
  month : ℕ
  day : ℕ
  hour : ℕ
  minute : ℕ
  second : ℕ

namespace DateTime

variable (now : DateTime)

/-- `toString("yyyy-M-d")`. -/
def dateText : QString :=
  (number now.year).leftpad 4 '0' ++ '-' :: (number now.month ++ '-' :: number now.day)

/-- `toString("h:m:s")`. -/
def timeText : QString := number now.hour ++ ':' :: (number now.minute ++ ':' :: number now.second)

end DateTime

namespace Eventer

section Model

variable (numbers : QNumbers) (s : Eventer)

/-- `Eventer::getUri`: the `arg` of two texts replaces both place markers of `"%1%2"` at
once. -/
def getUri (suburi : QString) : QString := s.serverUri ++ suburi

/-- The request of `Eventer::monitoring`, which reads the clock once for the day and once for
the time. -/
def monitoring (day now : DateTime) (boxId : ℤ) (track : QString) (type : ℤ) (result : QString)
    (volume : ℤ) : QString :=
  let uriFormat : QString := str
    "loger.php?date=%1&time=%2&mbid=%3&track=%4&mtype=%5&result=%6&volume=%7&mfz=0"
  let uri := ((((((uriFormat.arg numbers day.dateText).arg numbers now.timeText).argInt numbers
    boxId).arg numbers track).argInt numbers type).arg numbers result).argInt numbers volume
  s.getUri uri

/-- The request of `Eventer::eventer`. -/
def eventer (boxId : ℤ) (message value : QString) : QString :=
  let uriFormat : QString := str "eventer.php?mbid=%1&process=%2&message=%3"
  let process : QString := str "lampplayer_daemon"
  let jsonMsg : QString := str "\x7b\"msg\":\"%1\",\"value\":\"%2\"\x7d"
  let uri := ((uriFormat.argInt numbers boxId).arg numbers process).arg numbers
    ((jsonMsg.arg numbers message).arg numbers value)
  s.getUri uri

end Model

/-! ### What a request says -/

/-- The parameter `message` of the request is a JSON object with the message and the value. -/
def EventArrives (uri message value : QString) : Prop :=
  ∃ text members, Uri.parameter uri (str "message") = some (utf8 text) ∧
    Json.IsText text (.object members) ∧ Json.HasField members (str "msg") (.string message) ∧
    Json.HasField members (str "value") (.string value)

/-- The parameters of a playing track, with their values. -/
def trackItems (track : QString) (type : ℤ) (result : QString) (volume : ℤ) :
    List (QString × QString) :=
  [(str "track", track), (str "mtype", number type), (str "result", result),
    (str "volume", number volume)]

/-- The request has these parameters. -/
def TrackArrives (uri track : QString) (type : ℤ) (result : QString) (volume : ℤ) : Prop :=
  ∀ i ∈ trackItems track type result volume, Uri.parameter uri i.1 = some (utf8 i.2)

/-- What stands in front of the parameter `message`. -/
def eventPrefix (boxId : ℤ) : QString :=
  str "eventer.php?mbid=" ++ number boxId ++ str "&process=lampplayer_daemon"

/-- What stands in front of the parameter `track`. -/
def trackPrefix (day now : DateTime) (boxId : ℤ) : QString :=
  str "loger.php?date=" ++ day.dateText ++ str "&time=" ++ now.timeText ++ str "&mbid=" ++
    number boxId

/-- The address of the server has no fragment, and no query of its own that has one of these
parameters; `pre` is what `Eventer` puts behind it. -/
structure Quiet (address pre : QString) (keys : List QString) : Prop where
  noFragment : '#' ∉ address
  fresh : ∀ key ∈ keys, Uri.parameter (address ++ pre) key = none

/-- The text stands for itself in a JSON string in a query. -/
def PlainText (text : QString) : Prop := Json.Literal text ∧ Uri.Literal text

instance (text : QString) : Decidable (PlainText text) :=
  inferInstanceAs (Decidable (Json.Literal text ∧ Uri.Literal text))

/-! ### The prefixes -/

theorem notMem_dateText {day : DateTime} {c : Char} (noDigit : c.isDigit = false)
    (noMinus : c ≠ '-') : c ∉ day.dateText := by
  have zero : c ≠ '0' := by
    rintro rfl
    cases noDigit
  simp [DateTime.dateText, List.leftpad, notMem_number noDigit noMinus, noMinus, zero]

theorem notMem_timeText {now : DateTime} {c : Char} (noDigit : c.isDigit = false)
    (noMinus : c ≠ '-') (noColon : c ≠ ':') : c ∉ now.timeText := by
  simp [DateTime.timeText, notMem_number noDigit noMinus, noColon]

variable {numbers : QNumbers} {s : Eventer} {boxId type volume : ℤ} {day now : DateTime}
variable {message value track result x : QString}

theorem literal_number (n : ℤ) : Uri.Literal (number n) :=
  Uri.literal_of_notMem (notMem_number rfl (by decide)) (notMem_number rfl (by decide))
    (notMem_number rfl (by decide))

theorem literal_dateText : Uri.Literal day.dateText :=
  Uri.literal_of_notMem (notMem_dateText rfl (by decide)) (notMem_dateText rfl (by decide))
    (notMem_dateText rfl (by decide))

theorem literal_timeText : Uri.Literal now.timeText :=
  Uri.literal_of_notMem (notMem_timeText rfl (by decide) (by decide))
    (notMem_timeText rfl (by decide) (by decide)) (notMem_timeText rfl (by decide) (by decide))

theorem clear_number {n : ℕ} : QString.Clear numbers n (number type) :=
  QString.clear_of_no_percent (notMem_number rfl (by decide))

theorem clear_dateText {n : ℕ} : QString.Clear numbers n day.dateText :=
  QString.clear_of_no_percent (notMem_dateText rfl (by decide))

theorem clear_timeText {n : ℕ} : QString.Clear numbers n now.timeText :=
  QString.clear_of_no_percent (notMem_timeText rfl (by decide) (by decide))

theorem clear_nil {n : ℕ} : QString.Clear numbers n [] := QString.clear_of_no_percent (by simp)

/-- The prefixes, with the items in them. -/
theorem eventPrefix_eq (address : QString) : address ++ eventPrefix boxId =
    address ++ str "eventer.php" ++ '?' :: (str "mbid" ++ '=' :: number boxId) ++
      Uri.item (str "process") (str "lampplayer_daemon") := by
  simp [eventPrefix, Uri.item, str]

theorem trackPrefix_eq (address : QString) : address ++ trackPrefix day now boxId =
    address ++ str "loger.php" ++ '?' :: (str "date" ++ '=' :: day.dateText) ++
      Uri.item (str "time") now.timeText ++ Uri.item (str "mbid") (number boxId) := by
  simp [trackPrefix, Uri.item, str]

theorem notMem_trackPrefix : '%' ∉ trackPrefix day now boxId := by
  have box : '%' ∉ number boxId := notMem_number rfl (by decide)
  have date : '%' ∉ day.dateText := notMem_dateText rfl (by decide)
  have time : '%' ∉ now.timeText := notMem_timeText rfl (by decide) (by decide)
  simp [trackPrefix, str, box, date, time]

/-- An event is put into a query. -/
theorem inQuery_event (noFragment : '#' ∉ s.serverUri) :
    Uri.InQuery (s.serverUri ++ eventPrefix boxId) := by
  rw [eventPrefix_eq]
  exact (Uri.InQuery.single (by simpa [str] using noFragment) (by decide) (literal_number _)).item
    (by decide) (by decide)

/-- A track is put into a query. -/
theorem inQuery_track (day now : DateTime) (boxId : ℤ) (noFragment : '#' ∉ s.serverUri) :
    Uri.InQuery (s.serverUri ++ trackPrefix day now boxId) := by
  rw [trackPrefix_eq]
  exact ((Uri.InQuery.single (by simpa [str] using noFragment) (by decide) literal_dateText).item
    (by decide) literal_timeText).item (by decide) (literal_number _)

/-! ### The request of an event -/

/-- The text that `eventer` gives to the parameter `message`. -/
def eventJson (numbers : QNumbers) (message value : QString) : QString :=
  ((str "\x7b\"msg\":\"%1\",\"value\":\"%2\"\x7d" : QString).arg numbers message).arg numbers value

/-- What stands in front of the message in it. -/
def jsonHead : QString := str "\x7b\"msg\":\""

/-- What stands behind the message while the value is not there yet. -/
def jsonTail : QString := str "\",\"value\":\"%2\"\x7d"

theorem json_format : (str "\x7b\"msg\":\"%1\",\"value\":\"%2\"\x7d" : QString) =
    QString.format 1 [str "\x7b\"msg\":\"", str "\",\"value\":\""] (str "\"\x7d") := rfl

theorem event_format : (str "eventer.php?mbid=%1&process=%2&message=%3" : QString) =
    QString.format 1 [str "eventer.php?mbid=", str "&process=", str "&message="] [] := rfl

/-- **The request of an event.** -/
theorem eventer_eq : s.eventer numbers boxId message value =
    s.serverUri ++ eventPrefix boxId ++
      Uri.item (str "message") (eventJson numbers message value) := by
  have process : QString.Clear numbers 3 (str "lampplayer_daemon") :=
    QString.clear_of_no_percent (by decide)
  have filled := QString.foldl_argLocalized numbers 1 3
    [str "eventer.php?mbid=", str "&process=", str "&message="]
    [(number boxId, numbers.localized boxId), (str "lampplayer_daemon", str "lampplayer_daemon"),
      (eventJson numbers message value, eventJson numbers message value)] [] rfl (by decide)
    QString.follows_nil (by decide) (by decide) clear_nil (by simp [clear_number, process])
  rw [List.nil_append, List.nil_append, ← event_format] at filled
  simp only [List.foldl_cons, List.foldl_nil] at filled
  show s.serverUri ++ (((QString.argInt numbers _ boxId).arg numbers _).arg numbers
    (eventJson numbers message value)) = _
  unfold QString.argInt QString.arg
  rw [filled]
  simp [QString.filled, eventPrefix, Uri.item, str]

/-- When the message has no place marker up to `%2`, both texts go where they belong. -/
theorem eventJson_eq (clear : QString.Clear numbers 2 message) :
    eventJson numbers message value = Json.objectText (str "msg") message (str "value") value := by
  have ends : QString.Separator (str "\"\x7d") := by decide
  have filled :=
    QString.foldl_argLocalized numbers 1 2 [str "\x7b\"msg\":\"", str "\",\"value\":\""]
    [(message, message), (value, value)] (str "\"\x7d") rfl (by decide) ends.follows
    (by decide) (by decide) clear_nil (by simpa using clear)
  rw [List.nil_append, List.nil_append, ← json_format] at filled
  simp only [List.foldl_cons, List.foldl_nil] at filled
  unfold eventJson QString.arg
  rw [filled]
  simp [QString.filled, Json.objectText, Json.quoted, str]

/-- **Otherwise** the value is written over a part of the message. -/
theorem eventJson_low (value : QString) (low : ¬ QString.Clear numbers 2 message) :
    ∃ k, Occurs (QString.replacement numbers k value value) message ∧
      eventJson numbers message value = jsonHead ++
        (QString.replaceArgEscapes numbers k value value message ++
          QString.replaceArgEscapes numbers k value value jsonTail) := by
  have ends : QString.Separator (str "\"\x7d") := by decide
  have separators : ∀ sep ∈ [jsonHead, str "\",\"value\":\""], QString.Separator sep := by decide
  have behind : QString.Follows numbers 2 jsonTail :=
    QString.follows_format (k := 2) (fun sep mem => separators sep (.tail _ mem)) ends.follows
      (by decide)
  obtain ⟨k, occurs, put⟩ := QString.exists_lowest (a := value) (separators _ List.mem_cons_self)
    clear_nil behind low
  refine ⟨k, occurs, Eq.trans ?_ put⟩
  have first : (str "\x7b\"msg\":\"%1\",\"value\":\"%2\"\x7d" : QString).arg numbers message =
      [] ++ jsonHead ++ message ++ jsonTail := by
    rw [json_format]
    exact QString.argLocalized_format (x := []) separators ends.follows (by decide) clear_nil
  unfold eventJson
  rw [first, QString.arg]
  simp

/-! ### The request of a track -/

/-- The arguments behind the track. -/
def laterArgs (numbers : QNumbers) (type : ℤ) (result : QString) (volume : ℤ) :
    List (QString × QString) :=
  [(number type, numbers.localized type), (result, result),
    (number volume, numbers.localized volume)]

/-- The format behind the track. -/
def laterFormat : QString :=
  QString.format 5 [str "&mtype=", str "&result=", str "&volume="] (str "&mfz=0")

theorem track_format : (str
      "loger.php?date=%1&time=%2&mbid=%3&track=%4&mtype=%5&result=%6&volume=%7&mfz=0" : QString) =
    QString.format 1 [str "loger.php?date=", str "&time=", str "&mbid=", str "&track="]
      laterFormat := by
  simp [str, laterFormat, QString.format, Nat.digitChar]

theorem follows_laterFormat : QString.Follows numbers 5 laterFormat := by
  have ends : QString.Separator (str "&mfz=0") := by decide
  exact QString.follows_format (by decide) ends.follows (by decide)

/-- **The request of a track**, with the first arguments in it. -/
theorem monitoring_eq : s.monitoring numbers day now boxId track type result volume =
    s.serverUri ++ (laterArgs numbers type result volume).foldl
      (fun s a => QString.argLocalized numbers s a.1 a.2)
      (trackPrefix day now boxId ++ (str "&track=" ++ (track ++ laterFormat))) := by
  have filled := QString.foldl_argLocalized numbers 1 7
    [str "loger.php?date=", str "&time=", str "&mbid=", str "&track="]
    [(day.dateText, day.dateText), (now.timeText, now.timeText),
      (number boxId, numbers.localized boxId), (track, track)] laterFormat rfl (by decide)
    follows_laterFormat (by decide) (by decide) clear_nil
    (by simp [clear_dateText, clear_timeText, clear_number])
  rw [List.nil_append, List.nil_append, ← track_format] at filled
  simp only [List.foldl_cons, List.foldl_nil] at filled
  have text : trackPrefix day now boxId ++ (str "&track=" ++ (track ++ laterFormat)) =
      QString.filled [str "loger.php?date=", str "&time=", str "&mbid=", str "&track="]
        [day.dateText, now.timeText, number boxId, track] laterFormat := by
    simp [QString.filled, trackPrefix, str]
  rw [text]
  unfold monitoring getUri QString.argInt QString.arg laterArgs
  simp only [List.foldl_cons, List.foldl_nil, filled]
  rfl

theorem clear_front (day now : DateTime) (boxId : ℤ) (clear : QString.Clear numbers 7 track) :
    QString.Clear numbers 7 (trackPrefix day now boxId ++ (str "&track=" ++ track)) := by
  have separator : QString.Separator (str "&track=") := by decide
  intro marker mem
  rw [QString.markers_of_no_percent notMem_trackPrefix,
    QString.markers_of_no_percent separator.no_percent] at mem
  exact clear marker mem

/-- When no text has a place marker up to `%7`, all of them go where they belong. -/
theorem monitoring_clear (clear : QString.Clear numbers 7 track)
    (clear' : QString.Clear numbers 7 result) :
    s.monitoring numbers day now boxId track type result volume =
      s.serverUri ++ trackPrefix day now boxId ++
        ((trackItems track type result volume).flatMap (fun i => Uri.item i.1 i.2) ++
          Uri.item (str "mfz") (str "0")) := by
  have ends : QString.Separator (str "&mfz=0") := by decide
  have filled :=
    QString.foldl_argLocalized numbers 5 7 [str "&mtype=", str "&result=", str "&volume="]
    (laterArgs numbers type result volume) (str "&mfz=0") rfl (by decide) ends.follows (by decide)
    (by decide) (clear_front day now boxId clear) (by simp [laterArgs, clear_number, clear'])
  have group : trackPrefix day now boxId ++ (str "&track=" ++ (track ++ laterFormat)) =
      trackPrefix day now boxId ++ (str "&track=" ++ track) ++
        QString.format 5 [str "&mtype=", str "&result=", str "&volume="] (str "&mfz=0") := by
    simp [laterFormat]
  rw [monitoring_eq, group, filled]
  simp [QString.filled, laterArgs, trackItems, Uri.item, str]

/-! ### Ordinary addresses -/

/-- An address without a query and a fragment leaves the parameters of an event alone. -/
theorem quiet_event (noFragment : '#' ∉ s.serverUri) (noQuery : '?' ∉ s.serverUri) :
    Quiet s.serverUri (eventPrefix boxId) [str "message"] where
  noFragment := noFragment
  fresh key mem := by
    obtain rfl := List.mem_singleton.mp mem
    have hash : '#' ∉ s.serverUri ++ str "eventer.php" := by simpa [str] using noFragment
    have mark : '?' ∉ s.serverUri ++ str "eventer.php" := by simpa [str] using noQuery
    have box : Uri.Name (str "mbid") := by decide
    rw [eventPrefix_eq]
    exact Uri.parameter_skip (.single hash box (literal_number _))
      (Uri.parameter_single hash mark box (by decide) (literal_number _)) (by decide) (by decide)
      (by decide)

/-- And those of a track. -/
theorem quiet_track (noFragment : '#' ∉ s.serverUri) (noQuery : '?' ∉ s.serverUri) :
    Quiet s.serverUri (trackPrefix day now boxId)
      ((trackItems track type result volume).map Prod.fst) where
  noFragment := noFragment
  fresh key mem := by
    have hash : '#' ∉ s.serverUri ++ str "loger.php" := by simpa [str] using noFragment
    have mark : '?' ∉ s.serverUri ++ str "loger.php" := by simpa [str] using noQuery
    have date : Uri.Name (str "date") := by decide
    have time : Uri.Name (str "time") := by decide
    have others : ∀ key ∈ [str "track", str "mtype", str "result", str "volume"],
        utf8 (str "date") ≠ utf8 key ∧ utf8 (str "time") ≠ utf8 key ∧
          utf8 (str "mbid") ≠ utf8 key := by
      decide
    obtain ⟨apart, apart', apart''⟩ := others key mem
    have first : Uri.InQuery
        (s.serverUri ++ str "loger.php" ++ '?' :: (str "date" ++ '=' :: day.dateText)) :=
      .single hash date literal_dateText
    rw [trackPrefix_eq]
    exact Uri.parameter_skip (first.item time literal_timeText)
      (Uri.parameter_skip first (Uri.parameter_single hash mark date apart literal_dateText) time
        apart' literal_timeText) (by decide) apart'' (literal_number _)

end Eventer

end MediaUpdater
