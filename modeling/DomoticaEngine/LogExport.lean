import Mathlib.Algebra.Order.Ring.Abs
import Mathlib.Tactic.Linarith
import DomoticaEngine.DeviceLogs
import DomoticaEngine.Library.Calendar

/-!
The logs of a device as a JSON text.
-/

set_option autoImplicit false

namespace DomoticaEngine

structure UtcTm where
  date : Calendar.Date
  hour : Nat
  min : Nat
  sec : Nat
  deriving DecidableEq, Repr

def gmtime (ts : Int) : UtcTm :=
  let rest := (ts % 86400).toNat
  { date := Calendar.date (ts / 86400), hour := rest / 3600, min := rest / 60 % 60,
    sec := rest % 60 }

/-- `"%Y%m%dT%H%M%SZ"` of `strftime`. -/
def timestampText (tm : UtcTm) : CString :=
  intText tm.date.year ++ (padded 2 tm.date.month ++ (padded 2 tm.date.day ++
    'T' :: (padded 2 tm.hour ++ (padded 2 tm.min ++ (padded 2 tm.sec ++ ['Z'])))))

/-- `char buf[64]`, of which `snprintf` keeps one byte for the NUL. -/
def entryBuffer : Nat := 64

def entryText (entry : DeviceLogEntry) : CString :=
  ("\x7b\"".toList ++ timestampText (gmtime entry.ts) ++ "\":".toList ++ floatText entry.value ++
    "\x7d".toList).take (entryBuffer-1)

/-- The loop over the entries, which stops at the first one that is too old. -/
def appendEntries (now interval : Int) : Nat → List DeviceLogEntry → CString → CString
  | _, [], json => json
  | entryCount, entry :: entries, json =>
    if entry.ts < now-interval then json
    else
      let json := if entryCount > 0 then json ++ ",".toList else json
      appendEntries now interval (entryCount+1) entries (json ++ entryText entry)

def logTypeName : LogType → String
  | .humidity => "humidity"
  | .temperature => "temperature"

def appendLog (now interval : Int) (json : CString) (log : DeviceLog) : CString :=
  let json := if json.length > 5 then json ++ "\t,\n".toList else json
  let json := json ++ ("\t\"".toList ++ (logTypeName log.type).toList ++ "\":\n\t[".toList)
  appendEntries now interval 0 log.entries.contents json ++ "\t]\n".toList

/-- `device_logs_get_json`, while the clock stands at `now`. -/
def deviceLogsGetJson (deviceLogs : List DeviceLog) (device : DeviceId) (now interval : Int) :
    CString :=
  deviceLogs.foldl
    (fun json log => if log.device = device then appendLog now interval json log else json)
    "\x7b\n".toList ++ "\x7d\n".toList

section Text
variable {now interval : Int}

def shownEntries (now interval : Int) (log : DeviceLog) : List DeviceLogEntry :=
  log.entries.contents.takeWhile (fun entry => now-interval ≤ entry.ts)

theorem appendEntries_eq (entryCount : Nat) (entries : List DeviceLogEntry) (json : CString) :
    appendEntries now interval entryCount entries json = json ++
      (if entryCount > 0 ∧ entries.takeWhile (fun entry => now-interval ≤ entry.ts) ≠ []
        then [','] else []) ++
      [','].intercalate
        ((entries.takeWhile (fun entry => now-interval ≤ entry.ts)).map entryText) := by
  induction entries generalizing entryCount json with
  | nil => simp [appendEntries]
  | cons entry entries ih =>
    unfold appendEntries
    by_cases hold : entry.ts < now-interval
    · have hstop : ¬ now-interval ≤ entry.ts := not_le.mpr hold
      rw [if_pos hold,List.takeWhile_cons_of_neg (by simpa using hstop)]
      simp
    · have hshown : now-interval ≤ entry.ts := not_lt.mp hold
      rw [if_neg hold,ih,List.takeWhile_cons_of_pos (by simpa using hshown)]
      generalize entries.takeWhile (fun entry => now-interval ≤ entry.ts) = shown
      cases shown with
      | nil => by_cases hcount : entryCount > 0 <;> simp [hcount]
      | cons next shown =>
        by_cases hcount : entryCount > 0 <;> simp [hcount,List.intercalate_cons_cons]

def logText (now interval : Int) (log : DeviceLog) : CString :=
  "\t\"".toList ++ (logTypeName log.type).toList ++ "\":\n\t[".toList ++
    [','].intercalate ((shownEntries now interval log).map entryText) ++ "\t]\n".toList

theorem appendLog_eq (json : CString) (log : DeviceLog) :
    appendLog now interval json log =
      (if json.length > 5 then json ++ "\t,\n".toList else json) ++ logText now interval log := by
  simp only [appendLog,appendEntries_eq]
  simp [logText,shownEntries]

theorem logText_length (log : DeviceLog) : 5 < (logText now interval log).length := by
  simp only [logText,List.length_append]
  have htab : "\t\"".toList.length = 2 ∧ "\":\n\t[".toList.length = 5 := by decide
  omega

def logSeparator : CString := ['\t'] ++ ',' :: ['\n']

theorem appendLogs_eq (logs : List DeviceLog) (json : CString) (hjson : 5 < json.length) :
    logs.foldl (appendLog now interval) json =
      json ++ (logs.map (logText now interval)).flatMap (fun text => logSeparator ++ text) := by
  induction logs generalizing json with
  | nil => simp
  | cons log logs ih =>
    rw [List.foldl_cons,appendLog_eq,if_pos hjson,ih]
    · simp [logSeparator]
    · simp only [List.length_append]
      omega

theorem intercalate_cons {sep text : CString} {texts : List CString} :
    sep.intercalate (text :: texts) = text ++ texts.flatMap (fun text => sep ++ text) := by
  induction texts generalizing text with
  | nil => simp
  | cons next texts ih => rw [List.intercalate_cons_cons,ih,List.flatMap_cons]; simp

theorem deviceLogsGetJson_eq (deviceLogs : List DeviceLog) (device : DeviceId) :
    deviceLogsGetJson deviceLogs device now interval =
      '{' :: (['\n'] ++ (logSeparator.intercalate
        ((deviceLogs.filter (fun log => log.device = device)).map (logText now interval)) ++
          ([] ++ ['}']))) ++ ['\n'] := by
  have hfilter : ∀ json, deviceLogs.foldl
      (fun json log => if log.device = device then appendLog now interval json log else json) json =
      (deviceLogs.filter (fun log => log.device = device)).foldl (appendLog now interval) json := by
    intro json
    rw [List.foldl_filter]
    simp
  rw [deviceLogsGetJson,hfilter]
  cases deviceLogs.filter (fun log => log.device = device) with
  | nil => simp
  | cons log logs =>
    have hfirst : appendLog now interval "\x7b\n".toList log =
        "\x7b\n".toList ++ logText now interval log := by
      rw [appendLog_eq]
      rfl
    rw [List.foldl_cons,hfirst,appendLogs_eq,List.map_cons,intercalate_cons]
    · simp
    · rw [List.length_append]
      have hlength : 5 < (logText now interval log).length := logText_length log
      omega

end Text

def readTimestamp (s : CString) : Int :=
  let field := fun start count => Json.digitsValue ((s.drop start).take count)
  Calendar.days { year := (field 0 4 : Nat), month := field 4 2, day := field 6 2 } * 86400 +
    (field 9 2*3600 + field 11 2*60 + field 13 2 : Nat)

def timestampEnd : Int := Calendar.fourDigitDays*86400

section Timestamp
variable {ts : Int}

structure UtcTm.FourDigits (tm : UtcTm) : Prop where
  year : ∃ year : Nat, tm.date.year = year ∧ 1000 ≤ year ∧ year < 10^4
  month : tm.date.month < 10^2
  day : tm.date.day < 10^2
  hour : tm.hour < 10^2
  min : tm.min < 10^2
  sec : tm.sec < 10^2

theorem gmtime_digits (h : 0 ≤ ts) (h' : ts < timestampEnd) : (gmtime ts).FourDigits := by
  have hend : timestampEnd = 2932897*86400 := rfl
  have hdays : Calendar.fourDigitDays = 2932897 := rfl
  obtain ⟨hfirst,hlast,hmonth,hday⟩ := Calendar.date_bounds (n := ts / 86400) (by omega) (by omega)
  have hrest : (ts % 86400).toNat < 86400 := by omega
  refine ⟨⟨(Calendar.date (ts / 86400)).year.toNat,?_,?_,?_⟩,?_,?_,?_,?_,?_⟩ <;>
    (try simp only [gmtime]) <;> omega

theorem intText_nat (n : Nat) : intText n = decimal n := by
  unfold intText
  rw [if_neg (by omega),Int.natAbs_natCast]

theorem decimal_four {n : Nat} (h : 1000 ≤ n) (h' : n < 10^4) : (decimal n).length = 4 := by
  have hle := decimal_length (k := 4) (by decide) h'
  have hnot : ¬ (decimal n).length ≤ 3 := by
    intro hthree
    have hlt := (Nat.length_toDigits_le_iff (by decide) (by decide)).mp hthree
    omega
  omega

theorem timestampText_length {tm : UtcTm} (h : tm.FourDigits) : (timestampText tm).length = 16 := by
  obtain ⟨year,hyear,hfirst,hlast⟩ := h.year
  have htwo : ∀ n, n < 10^2 → (padded 2 n).length = 2 := fun n => padded_length (by decide)
  simp [timestampText,hyear,intText_nat,decimal_four hfirst hlast,htwo _ h.month,htwo _ h.day,
    htwo _ h.hour,htwo _ h.min,htwo _ h.sec]

theorem timestampText_plain (tm : UtcTm) : PlainText (timestampText tm) := by
  refine plainText_append.mpr ⟨intText_plain _,plainText_append.mpr ⟨padded_plain _ _,?_⟩⟩
  refine plainText_append.mpr ⟨padded_plain _ _,plainText_cons.mpr ⟨by decide,?_⟩⟩
  refine plainText_append.mpr ⟨padded_plain _ _,plainText_append.mpr ⟨padded_plain _ _,?_⟩⟩
  exact plainText_append.mpr ⟨padded_plain _ _,by decide⟩

theorem readTimestamp_fields {year month day hour min sec : CString} (hyear : year.length = 4)
    (hmonth : month.length = 2) (hday : day.length = 2) (hhour : hour.length = 2)
    (hmin : min.length = 2) (hsec : sec.length = 2) :
    readTimestamp
        (year ++ (month ++ (day ++ 'T' :: (hour ++ (min ++ (sec ++ ['Z'])))))) =
      Calendar.days ⟨(Json.digitsValue year : Nat),Json.digitsValue month,Json.digitsValue day⟩ *
        86400 +
      (Json.digitsValue hour*3600 + Json.digitsValue min*60 + Json.digitsValue sec : Nat) := by
  obtain ⟨y₁,year,rfl⟩ := List.exists_cons_of_length_pos (l := year) (by omega)
  obtain ⟨y₂,y₃,y₄,rfl⟩ := List.length_eq_three.mp (Nat.succ.inj hyear)
  obtain ⟨m₁,m₂,rfl⟩ := List.length_eq_two.mp hmonth
  obtain ⟨d₁,d₂,rfl⟩ := List.length_eq_two.mp hday
  obtain ⟨h₁,h₂,rfl⟩ := List.length_eq_two.mp hhour
  obtain ⟨n₁,n₂,rfl⟩ := List.length_eq_two.mp hmin
  obtain ⟨s₁,s₂,rfl⟩ := List.length_eq_two.mp hsec
  rfl

theorem readTimestamp_text (h : 0 ≤ ts) (h' : ts < timestampEnd) :
    readTimestamp (timestampText (gmtime ts)) = ts := by
  have hdigits := gmtime_digits h h'
  obtain ⟨year,hyear,hfirst,hlast⟩ := hdigits.year
  have htwo : ∀ n, n < 10^2 → (padded 2 n).length = 2 := fun n => padded_length (by decide)
  have hvalue : ∀ n, Json.digitsValue (padded 2 n) = n := fun n => (padded_numeral 2 n).value
  have hfour : Json.digitsValue (decimal year) = year := (decimal_numeral year).value
  unfold timestampText
  rw [hyear,intText_nat,readTimestamp_fields (decimal_four hfirst hlast) (htwo _ hdigits.month)
    (htwo _ hdigits.day) (htwo _ hdigits.hour) (htwo _ hdigits.min) (htwo _ hdigits.sec)]
  simp only [hvalue,hfour,← hyear]
  have hdate := Calendar.days_date (ts / 86400)
  simp only [gmtime]
  rw [hdate]
  have hrest : ((ts % 86400).toNat : Int) = ts % 86400 := by omega
  omega

end Timestamp

def Double.toRat : Double → ℚ
  | .finite negative magnitude => if negative then -magnitude else magnitude
  | .infinite _ | .nan _ => 0

/-- The values that a DHT22 can send: 16 bits of tenths. -/
def SensorRange (v : Double) : Prop :=
  ∃ negative magnitude, v = .finite negative magnitude ∧ magnitude ≤ 65535/10

section Value

theorem roundHalfEven_error (q : ℚ≥0) : |(roundHalfEven q : ℚ)-q| ≤ 1/2 := by
  have hden : (0 : ℚ) < q.den := by exact_mod_cast q.den_pos
  have hnum : ((q.den*(q.num / q.den)+q.num % q.den : Nat) : ℚ) = q.num := by
    rw [Nat.div_add_mod]
  push_cast at hnum
  have hq : (q : ℚ)*q.den = q.num := by
    have hdiv := NNRat.num_div_den q
    have hcast : (q : ℚ) = (q.num : ℚ)/q.den := by
      conv_lhs => rw [← hdiv]
      push_cast
      rfl
    rw [hcast]
    exact div_mul_cancel₀ _ (ne_of_gt hden)
  have hbound : ∀ n : Nat, |(n : ℚ)*q.den-q.num| ≤ q.den/2 → |(n : ℚ)-q| ≤ 1/2 := by
    intro n hn
    rw [← hq,← sub_mul,abs_mul,abs_of_pos hden] at hn
    by_contra hgt
    have hmul := mul_lt_mul_of_pos_right (not_le.mp hgt) hden
    linarith
  unfold roundHalfEven
  simp only
  have hrest : (q.num % q.den : Nat) < q.den := Nat.mod_lt _ q.den_pos
  have hlow : 2*(q.num % q.den) ≤ q.den → |((q.num / q.den : Nat) : ℚ)-q| ≤ 1/2 := by
    intro hle
    refine hbound _ ?_
    have hcast : (2 : ℚ)*(q.num % q.den : Nat) ≤ q.den := by exact_mod_cast hle
    have hnonneg : (0 : ℚ) ≤ (q.num % q.den : Nat) := Nat.cast_nonneg _
    rw [abs_le]
    constructor <;> linarith
  have hhigh : q.den ≤ 2*(q.num % q.den) → |((q.num / q.den+1 : Nat) : ℚ)-q| ≤ 1/2 := by
    intro hle
    refine hbound _ ?_
    have hcast : (q.den : ℚ) ≤ 2*(q.num % q.den : Nat) := by exact_mod_cast hle
    have hless : ((q.num % q.den : Nat) : ℚ) < q.den := by exact_mod_cast hrest
    push_cast
    rw [abs_le]
    constructor <;> linarith
  split
  · exact hlow (by omega)
  · split
    · exact hhigh (by omega)
    · split
      · exact hlow (by omega)
      · exact hhigh (by omega)

theorem fixedText_number (micros : Nat) :
    Json.readUnsigned (fixedText micros) = some ((micros : ℚ)/1000000) := by
  have hwhole := decimal_numeral (micros / 1000000)
  have hfraction := padded_numeral 6 (micros % 1000000)
  have hlength : (padded 6 (micros % 1000000)).length = 6 := padded_length (by decide) (by omega)
  have hdigits : Json.digitsValue
      (decimal (micros / 1000000) ++ padded 6 (micros % 1000000)) = micros := by
    unfold Json.digitsValue
    rw [Nat.ofDigitChars_append,Nat.ofDigitChars_eq_ofDigitChars_zero,hwhole.value,
      hfraction.value,hlength]
    omega
  unfold fixedText
  rw [Json.readUnsigned_point hwhole.ne_nil hwhole.digit (decimal_head _) hfraction.ne_nil
    hfraction.digit,hdigits,hlength]
  norm_num [div_eq_mul_inv]

theorem fixedText_chars (micros : Nat) : ∀ c ∈ fixedText micros, c.isDigit = true ∨ c = '.' := by
  intro c hc
  rcases List.mem_append.mp hc with hc | hc
  · exact .inl ((decimal_numeral _).digit c hc)
  · rcases List.mem_cons.mp hc with rfl | hc
    · exact .inr rfl
    · exact .inl ((padded_numeral 6 _).digit c hc)

theorem fixedText_head (micros : Nat) : (fixedText micros).head? ≠ some '-' := by
  intro h
  rcases fixedText_chars micros _ (List.mem_of_mem_head? h) with hdigit | hpoint
  · exact absurd hdigit (by decide)
  · exact absurd hpoint (by decide)

def writtenValue (negative : Bool) (magnitude : ℚ≥0) : ℚ :=
  if negative then -((micros magnitude : ℚ)/1000000) else (micros magnitude : ℚ)/1000000

theorem floatText_number (negative : Bool) (magnitude : ℚ≥0) :
    Json.readNumber (floatText (.finite negative magnitude)) =
      some (writtenValue negative magnitude) := by
  have hunsigned := fixedText_number (micros magnitude)
  cases negative with
  | true =>
    have htext : floatText (.finite true magnitude) = '-' :: fixedText (micros magnitude) := rfl
    rw [htext,Json.readNumber,if_pos List.head?_cons,List.tail_cons,hunsigned]
    rfl
  | false =>
    have htext : floatText (.finite false magnitude) = fixedText (micros magnitude) := rfl
    rw [htext,Json.readNumber,if_neg (fixedText_head _),hunsigned]
    rfl

theorem floatText_prints (negative : Bool) (magnitude : ℚ≥0) :
    Json.Prints (floatText (.finite negative magnitude))
      (.number (writtenValue negative magnitude)) := by
  refine Json.prints_number (fun c hc => ?_) (floatText_number negative magnitude)
  rcases List.mem_append.mp hc with hc | hc
  · cases negative with
    | true =>
      rw [List.mem_singleton.mp hc]
      rfl
    | false => cases hc
  · rcases fixedText_chars _ c hc with hdigit | rfl
    · simp [Json.isNumberChar,hdigit]
    · rfl

/-- The written number is the nearest one with six digits behind the point. -/
theorem writtenValue_error (negative : Bool) (magnitude : ℚ≥0) :
    |writtenValue negative magnitude-(Double.finite negative magnitude).toRat| ≤ 1/2000000 := by
  have herror := roundHalfEven_error (magnitude*1000000)
  have hmillion : |(micros magnitude : ℚ)/1000000-magnitude| ≤ 1/2000000 := by
    rw [abs_le] at herror ⊢
    push_cast at herror
    unfold micros
    constructor <;> linarith
  unfold writtenValue Double.toRat
  cases negative with
  | true =>
    have hneg : -((micros magnitude : ℚ)/1000000)- -(magnitude : ℚ) =
        -((micros magnitude : ℚ)/1000000-magnitude) := by linarith
    simp only [if_true]
    rw [hneg,abs_neg]
    exact hmillion
  | false => simpa using hmillion

theorem floatText_length {v : Double} (h : SensorRange v) : (floatText v).length ≤ 12 := by
  obtain ⟨negative,magnitude,rfl,hrange⟩ := h
  have hmicros : micros magnitude ≤ 6553500000 := by
    have herror := (abs_le.mp (roundHalfEven_error (magnitude*1000000))).2
    have hcast : (magnitude : ℚ) ≤ 65535/10 := by exact_mod_cast hrange
    push_cast at herror
    have hlt : (micros magnitude : ℚ) < 6553500001 := by
      unfold micros
      linarith
    have hnat : micros magnitude < 6553500001 := by exact_mod_cast hlt
    omega
  have hwhole : (decimal (micros magnitude / 1000000)).length ≤ 4 :=
    decimal_length (by decide) (by omega)
  have hfraction : (padded 6 (micros magnitude % 1000000)).length = 6 :=
    padded_length (by decide) (by omega)
  have hminus : (minus negative).length ≤ 1 := by cases negative <;> decide
  have htext : floatText (.finite negative magnitude) = minus negative ++
      (decimal (micros magnitude / 1000000) ++ '.' :: padded 6 (micros magnitude % 1000000)) := rfl
  rw [htext,List.length_append,List.length_append,List.length_cons]
  omega

end Value

def ShowsEntry (entry : DeviceLogEntry) (element : Json.Value) : Prop :=
  ∃ stamp q, element = .object [(stamp,.number q)] ∧ readTimestamp stamp = entry.ts ∧
    |q-entry.value.toRat| ≤ 1/2000000

def ShowsLog (now interval : Int) (log : DeviceLog) (member : List Char × Json.Value) : Prop :=
  member.1 = (logTypeName log.type).toList ∧ ∃ elements, member.2 = .array elements ∧
    List.Forall₂ ShowsEntry
      (log.entries.contents.filter (fun entry => now-interval ≤ entry.ts)) elements

section Export
variable {now interval : Int}

def EntryFits (entry : DeviceLogEntry) : Prop :=
  0 ≤ entry.ts ∧ entry.ts < timestampEnd ∧ SensorRange entry.value

theorem entryText_eq {entry : DeviceLogEntry} (h : EntryFits entry) :
    entryText entry = '{' :: '"' :: (timestampText (gmtime entry.ts) ++ '"' :: ':' ::
      (floatText entry.value ++ ['}'])) := by
  obtain ⟨hfirst,hlast,hrange⟩ := h
  have hstamp := timestampText_length (gmtime_digits hfirst hlast)
  have hvalue := floatText_length hrange
  unfold entryText
  rw [List.take_of_length_le]
  · simp
  · have hends : "\x7b\"".toList.length = 2 ∧ "\":".toList.length = 2 ∧
        "\x7d".toList.length = 1 := by decide
    simp only [List.length_append,entryBuffer]
    omega

theorem entryText_prints {entry : DeviceLogEntry} (h : EntryFits entry) :
    ∃ element, Json.Prints (entryText entry) element ∧ ShowsEntry entry element := by
  obtain ⟨hfirst,hlast,hrange⟩ := id h
  obtain ⟨negative,magnitude,hvalue,-⟩ := hrange
  have hnumber : Json.Prints (floatText entry.value)
      (.number (writtenValue negative magnitude)) := by
    rw [hvalue]
    exact floatText_prints negative magnitude
  have hnone := Json.blank_nil
  have hmember := Json.prints_member hnone hnone (timestampText_plain (gmtime entry.ts))
    hnumber
  have hitems : ∀ item ∈
      [(_,timestampText (gmtime entry.ts),Json.Value.number (writtenValue negative magnitude))],
      Json.PrintsMember item.1 item.2.1 item.2.2 := List.forall_mem_singleton.mpr hmember
  have hobject := Json.prints_object hnone hnone hitems hnone hnone
  refine ⟨_,?_,timestampText (gmtime entry.ts),writtenValue negative magnitude,rfl,
    readTimestamp_text hfirst hlast,?_⟩
  · rw [entryText_eq h]
    simpa using hobject
  · rw [hvalue]
    exact writtenValue_error negative magnitude

theorem entries_print {entries : List DeviceLogEntry} (h : ∀ entry ∈ entries, EntryFits entry) :
    ∃ items : List (List Char × Json.Value), items.map Prod.fst = entries.map entryText ∧
      (∀ item ∈ items, Json.Prints item.1 item.2) ∧
      List.Forall₂ ShowsEntry entries (items.map Prod.snd) := by
  induction entries with
  | nil => exact ⟨[],rfl,by simp,.nil⟩
  | cons entry entries ih =>
    obtain ⟨element,hprints,hshows⟩ := entryText_prints (h entry (by simp))
    obtain ⟨items,htexts,hitems,hall⟩ := ih (fun e he => h e (by simp [he]))
    refine ⟨(entryText entry,element) :: items,by simp [htexts],?_,.cons hshows hall⟩
    exact List.forall_mem_cons.mpr ⟨hprints,hitems⟩

theorem logTypeName_plain (type : LogType) : PlainText (logTypeName type).toList := by
  cases type <;> decide

theorem logText_prints {log : DeviceLog} (h : ∀ entry ∈ log.entries.contents, EntryFits entry)
    (hshown : shownEntries now interval log =
      log.entries.contents.filter (fun entry => now-interval ≤ entry.ts)) :
    ∃ member, Json.PrintsMember (logText now interval log) member.1 member.2 ∧
      ShowsLog now interval log member := by
  have hfits : ∀ entry ∈ shownEntries now interval log, EntryFits entry :=
    fun entry hentry => h entry (List.takeWhile_subset _ hentry)
  obtain ⟨items,htexts,hitems,hall⟩ := entries_print hfits
  have htab : Json.Blank ['\t'] := Json.blank_singleton rfl
  have harray := Json.prints_array Json.blank_nil Json.blank_nil hitems htab
  have hnewline : Json.Blank ['\n'] := Json.blank_singleton rfl
  have hvalue := harray.blanks (hnewline.append htab) hnewline
  have hmember := Json.prints_member htab Json.blank_nil (logTypeName_plain log.type) hvalue
  refine ⟨((logTypeName log.type).toList,.array (items.map Prod.snd)),?_,rfl,_,rfl,?_⟩
  · rw [htexts] at hmember
    simpa [logText] using hmember
  · rw [← hshown]
    exact hall

end Export

section After
variable {adds : List LogAdd}

theorem update_pair {op : (DeviceId × LogType) × (DeviceLog → DeviceLog)}
    (h : op ∈ adds.map LogAdd.update) (log : DeviceLog) : (op.2 log).pair = log.pair := by
  obtain ⟨add,-,rfl⟩ := List.mem_map.mp h
  rfl

theorem log_contents {log : DeviceLog} (h : log ∈ deviceLogsAfter adds) :
    log.entries.contents =
      (((addsTo log.pair adds).map LogAdd.entry).reverse).take logEntries := by
  have hmem : log ∈ logsOf log.pair (deviceLogsAfter adds) :=
    List.mem_filter.mpr ⟨h,by simp⟩
  rw [logsOf_after] at hmem
  by_cases hnone : addsTo log.pair adds = []
  · rw [if_pos hnone] at hmem
    cases hmem
  · rw [if_neg hnone,List.mem_singleton] at hmem
    conv_lhs => rw [hmem]
    exact inserts_contents _ _

theorem contents_added {log : DeviceLog} (h : log ∈ deviceLogsAfter adds) :
    ∀ entry ∈ log.entries.contents, ∃ add ∈ adds, add.entry = entry := by
  intro entry hentry
  rw [log_contents h] at hentry
  have hadded := List.mem_reverse.mp (List.take_subset _ _ hentry)
  obtain ⟨add,hadd,rfl⟩ := List.mem_map.mp hadded
  exact ⟨add,List.mem_of_mem_filter hadd,rfl⟩

theorem contents_ordered {log : DeviceLog} (h : log ∈ deviceLogsAfter adds)
    (hordered : ((addsTo log.pair adds).map LogAdd.ts).Pairwise (· ≤ ·)) :
    log.entries.contents.Pairwise (fun newer older => older.ts ≤ newer.ts) := by
  rw [log_contents h]
  refine List.Pairwise.sublist (List.take_sublist _ _) ?_
  rw [List.pairwise_reverse,List.pairwise_map]
  exact List.pairwise_map.mp hordered

theorem takeWhile_filter_of_ordered {now interval : Int} {entries : List DeviceLogEntry}
    (h : entries.Pairwise (fun newer older => older.ts ≤ newer.ts)) :
    entries.takeWhile (fun entry => now-interval ≤ entry.ts) =
      entries.filter (fun entry => now-interval ≤ entry.ts) := by
  induction entries with
  | nil => rfl
  | cons entry entries ih =>
    obtain ⟨holder,hrest⟩ := List.pairwise_cons.mp h
    by_cases hshown : now-interval ≤ entry.ts
    · rw [List.takeWhile_cons_of_pos (by simpa using hshown),
        List.filter_cons_of_pos (by simpa using hshown),ih hrest]
    · rw [List.takeWhile_cons_of_neg (by simpa using hshown),
        List.filter_cons_of_neg (by simpa using hshown),eq_comm,List.filter_eq_nil_iff]
      intro older hmem
      have hle := holder older hmem
      simp only [decide_eq_true_eq]
      omega

theorem logTypeName_injective {a b : LogType}
    (h : (logTypeName a).toList = (logTypeName b).toList) : a = b := by
  revert h
  cases a <;> cases b <;> decide

theorem names_nodup (adds : List LogAdd) (device : DeviceId) :
    (((deviceLogsAfter adds).filter (fun log => log.device = device)).map
      (fun log => (logTypeName log.type).toList)).Nodup := by
  have hpairs : ((deviceLogsAfter adds).map DeviceLog.pair).Nodup := by
    rw [deviceLogsAfter_run]
    exact Upserts.keys_nodup _ _ (fun _ => rfl) _ (fun op hop log => update_pair hop log)
  have hfilter : (((deviceLogsAfter adds).filter (fun log => log.device = device)).map
      DeviceLog.pair).Nodup := hpairs.sublist (List.filter_sublist.map _)
  refine List.Nodup.map_on ?_ ?_
  · intro log hlog log' hlog' hname
    have htype := logTypeName_injective hname
    have hdevice : log.device = log'.device := by
      have hd := (List.mem_filter.mp hlog).2
      have hd' := (List.mem_filter.mp hlog').2
      simp only [decide_eq_true_eq] at hd hd'
      rw [hd,hd']
    exact List.inj_on_of_nodup_map hfilter hlog hlog' (Prod.ext hdevice htype)
  · exact List.Nodup.of_map _ hfilter

theorem logs_print (now interval : Int) {logs : List DeviceLog}
    (h : ∀ log ∈ logs, (∀ entry ∈ log.entries.contents, EntryFits entry) ∧
      log.entries.contents.Pairwise (fun newer older => older.ts ≤ newer.ts)) :
    ∃ items : List (List Char × List Char × Json.Value),
      items.map Prod.fst = logs.map (logText now interval) ∧
      (∀ item ∈ items, Json.PrintsMember item.1 item.2.1 item.2.2) ∧
      List.Forall₂ (ShowsLog now interval) logs (items.map Prod.snd) := by
  induction logs with
  | nil => exact ⟨[],rfl,by simp,.nil⟩
  | cons log logs ih =>
    obtain ⟨hfits,hordered⟩ := h log (by simp)
    have hshown : shownEntries now interval log =
        log.entries.contents.filter (fun entry => now-interval ≤ entry.ts) :=
      takeWhile_filter_of_ordered hordered
    obtain ⟨member,hprints,hshows⟩ := logText_prints hfits hshown
    obtain ⟨items,htexts,hitems,hall⟩ := ih (fun log' hlog => h log' (by simp [hlog]))
    refine ⟨(logText now interval log,member) :: items,by simp [htexts],?_,.cons hshows hall⟩
    exact List.forall_mem_cons.mpr ⟨hprints,hitems⟩

theorem shows_names {now interval : Int} {logs : List DeviceLog}
    {members : List (List Char × Json.Value)}
    (h : List.Forall₂ (ShowsLog now interval) logs members) :
    members.map Prod.fst = logs.map (fun log => (logTypeName log.type).toList) := by
  induction h with
  | nil => rfl
  | cons hshows _ ih => rw [List.map_cons,List.map_cons,hshows.1,ih]

end After

/-- The text is one object: it has a member for each log of the device and no other. -/
theorem logs_json_faithful (adds : List LogAdd) (device : DeviceId) (now interval : Int)
    (hordered : ∀ pair, ((addsTo pair adds).map LogAdd.ts).Pairwise (· ≤ ·))
    (hyears : ∀ add ∈ adds, 0 ≤ add.ts ∧ add.ts < timestampEnd)
    (hvalues : ∀ add ∈ adds, SensorRange add.value) :
    ∃ members,
      (∀ json, Json.Text (deviceLogsGetJson (deviceLogsAfter adds) device now interval) json ↔
        json = .object members) ∧
      (members.map Prod.fst).Nodup ∧
      List.Forall₂ (ShowsLog now interval)
        ((deviceLogsAfter adds).filter (fun log => log.device = device)) members := by
  have hlogs : ∀ log ∈ (deviceLogsAfter adds).filter (fun log => log.device = device),
      (∀ entry ∈ log.entries.contents, EntryFits entry) ∧
        log.entries.contents.Pairwise (fun newer older => older.ts ≤ newer.ts) := by
    intro log hlog
    have hmem := List.mem_of_mem_filter hlog
    refine ⟨fun entry hentry => ?_,contents_ordered hmem (hordered log.pair)⟩
    obtain ⟨add,hadd,rfl⟩ := contents_added hmem entry hentry
    exact ⟨(hyears add hadd).1,(hyears add hadd).2,hvalues add hadd⟩
  obtain ⟨items,htexts,hitems,hall⟩ := logs_print now interval hlogs
  have htab : Json.Blank ['\t'] := Json.blank_singleton rfl
  have hnewline : Json.Blank ['\n'] := Json.blank_singleton rfl
  have hobject := Json.prints_object htab hnewline hitems hnewline Json.blank_nil
  have htext := (hobject.blanks Json.blank_nil hnewline).text
  rw [htexts,List.nil_append] at htext
  refine ⟨items.map Prod.snd,fun json => ?_,?_,hall⟩
  · rw [deviceLogsGetJson_eq]
    exact ⟨fun hjson => hjson.unique htext,fun heq => heq ▸ htext⟩
  · rw [shows_names hall]
    exact names_nodup adds device

def frost : List LogAdd :=
  [⟨0,.temperature,1564660800,.finite false (451/20)⟩,
   ⟨0,.humidity,1564660800,.finite false (633/10)⟩,
   ⟨0,.temperature,1577880000,.finite true (3/2)⟩]

theorem logs_json_frost :
    ∃ members,
      (∀ json, Json.Text (deviceLogsGetJson (deviceLogsAfter frost) 0 1577880060 86400) json ↔
        json = .object members) ∧
      (members.map Prod.fst).Nodup ∧
      List.Forall₂ (ShowsLog 1577880060 86400)
        ((deviceLogsAfter frost).filter (fun log => log.device = 0)) members := by
  refine logs_json_faithful frost 0 1577880060 86400 (fun pair => ?_) (by decide) ?_
  · have hts : (frost.map LogAdd.ts).Pairwise (· ≤ ·) := by decide
    exact hts.sublist (List.filter_sublist.map _)
  · intro add hadd
    simp only [frost,List.mem_cons,List.not_mem_nil,or_false] at hadd
    rcases hadd with rfl | rfl | rfl
    · exact ⟨false,451/20,rfl,NNRat.coe_le_coe.mp (by push_cast; norm_num)⟩
    · exact ⟨false,633/10,rfl,NNRat.coe_le_coe.mp (by push_cast; norm_num)⟩
    · exact ⟨true,3/2,rfl,NNRat.coe_le_coe.mp (by push_cast; norm_num)⟩

end DomoticaEngine
