import OmniMemory.Kreuzberg.Parse

/-! The text files of the cache, for any fingerprint: what `write_cached_text` stores and what
`read_cached_text` makes of it when no call fails. `write_text` translates no newline on a POSIX
system, but `read_text` translates all of them, so exactly the carriage returns are lost. -/

namespace OmniMemory

open Interleave

theorem universalNewlines_not_mem (l : List Char) : '\r' ∉ universalNewlines l := by
  induction l using universalNewlines.induct with
  | case1 rest ih => simpa [universalNewlines] using ih
  | case2 rest single ih =>
    rw [universalNewlines]
    · simpa using ih
    · exact single
  | case3 c rest double single ih =>
    rw [universalNewlines]
    · refine List.not_mem_cons_of_ne_of_not_mem ?_ ih
      rintro rfl
      exact single rfl
    · exact double
    · exact single
  | case4 => exact List.not_mem_nil

theorem universalNewlines_eq_self {l : List Char} : universalNewlines l = l ↔ '\r' ∉ l :=
  ⟨fun same => same ▸ universalNewlines_not_mem l, universalNewlines_of_not_mem⟩

/-- A part without carriage returns, at whose end no line break is cut, is read as it is. -/
theorem universalNewlines_append {first rest : List Char} (plain : '\r' ∉ first) :
    universalNewlines (first ++ rest) = first ++ universalNewlines rest := by
  induction first with
  | nil => rfl
  | cons c first ih =>
    obtain ⟨other, plain⟩ := not_or.mp (List.mem_cons.not.mp plain)
    rw [List.cons_append, universalNewlines, ih plain, List.cons_append]
    · rintro rest rfl
      exact absurd rfl other
    · rintro rfl
      exact absurd rfl other

namespace Kreuzberg

/-- The text that `write_cached_text` writes. -/
def cachedText (fingerprint text : String) : String := "fingerprint:" ++ fingerprint ++ "\n" ++ text

theorem cachedContent_eq (fingerprint : Digest) (text : String) :
    cachedContent fingerprint text = encodeUtf8 (cachedText fingerprint.hex text) := rfl

theorem toList_cachedText (fingerprint text : String) : (cachedText fingerprint text).toList =
    ("fingerprint:".toList ++ fingerprint.toList) ++ '\n' :: text.toList := by
  simp [cachedText]

/-- The parse finds the fingerprint and the text, if the first line is one. -/
theorem parseCached_line {fingerprint : String} (line : '\n' ∉ fingerprint.toList)
    (text : List Char) :
    parseCached (("fingerprint:".toList ++ fingerprint.toList) ++ '\n' :: text) =
      some (fingerprint, String.ofList text) := by
  have noNewline : ∀ c ∈ "fingerprint:".toList ++ fingerprint.toList,
      decide (c ≠ '\n') = true := by
    intro c mem
    rw [decide_eq_true_eq]
    rintro rfl
    rcases List.mem_append.mp mem with mem | mem
    · exact absurd mem (by decide)
    · exact line mem
  have split : (("fingerprint:".toList ++ fingerprint.toList) ++ '\n' :: text).span
      (fun c => decide (c ≠ '\n')) =
        ("fingerprint:".toList ++ fingerprint.toList, '\n' :: text) := by
    rw [List.span_eq_takeWhile_dropWhile, List.takeWhile_append_of_pos noNewline,
      List.dropWhile_append_of_pos noNewline]
    simp
  have stamped : "fingerprint:".toList.isPrefixOf
      ("fingerprint:".toList ++ fingerprint.toList) = true :=
    List.isPrefixOf_iff_prefix.mpr (List.prefix_append _ _)
  unfold parseCached
  rw [split]
  dsimp only
  rw [if_pos stamped, List.drop_left, String.ofList_toList]

theorem parseBytes_cachedText {fingerprint text : String}
    (line : '\n' ∉ fingerprint.toList ∧ '\r' ∉ fingerprint.toList) :
    parseBytes (encodeUtf8 (cachedText fingerprint text)) =
      some (fingerprint, String.ofList (universalNewlines text.toList)) := by
  have header : '\r' ∉ "fingerprint:".toList ++ fingerprint.toList := by
    rw [List.mem_append, not_or]
    exact ⟨by decide, line.2⟩
  have newline : universalNewlines ('\n' :: text.toList) =
      '\n' :: universalNewlines text.toList := by
    rw [universalNewlines] <;> simp
  rw [parseBytes, decodeUtf8_encodeUtf8, Option.bind_some, toList_cachedText,
    universalNewlines_append header, newline, parseCached_line line.1]

/-! ### The two functions on a store of files -/

/-- The bytes of the files, by path. -/
abbrev TextStore := PurePath → Option Bytes

namespace TextStore

variable (store : TextStore) (path : PurePath)

/-- `path.write_text(text, encoding="utf-8")` on a POSIX system. -/
def writeText (text : String) : TextStore := Function.update store path (some (encodeUtf8 text))

/-- `path.read_text(encoding="utf-8")`. -/
def readText : Except PyError String :=
  match store path with
  | none => .error (.osError "No such file or directory")
  | some bytes =>
    match decodeUtf8 bytes with
    | none => .error (.valueError "'utf-8' codec can't decode byte")
    | some text => .ok (String.ofList (universalNewlines text.toList))

def writeCachedText (fingerprint text : String) : TextStore :=
  store.writeText path (cachedText fingerprint text)

def readCachedText : Option (String × String) :=
  if (store path).isSome then
    match store.readText path with
    | .error _ => none
    | .ok content => parseCached content.toList
  else none

/-- The answers to the calls of the client, when nothing fails but the reading of a missing file.
A file that is opened is written at once. -/
def answer : (op : Op) → TextStore → Res op × TextStore
  | .exists path, store => (.ok (store path).isSome, store)
  | .readText path, store | .readBytes path, store =>
    (match store path with
      | none => .error (.osError "No such file or directory")
      | some bytes => .ok bytes, store)
  | .post _, store => (.timeout, store)
  | .mkdir _, store | .closeText _, store | .publish .., store => (.ok (), store)
  | .openText path fingerprint _ text, store =>
    (.ok 0, Function.update store path (some (cachedContent fingerprint text)))
  | .flush _, store => (.ok false, store)

end TextStore

section RoundTrip

variable {store : TextStore} {path : PurePath} {fingerprint text : String}

/-- The program of `write_cached_text` stores what the function on stores does. -/
theorem run_writeCachedText (fingerprint : Digest) (version : String) :
    (writeCachedText path fingerprint version text).run TextStore.answer store =
      (.ok (), store.writeCachedText path fingerprint.hex text) := by
  unfold writeCachedText
  cases (cachedContent fingerprint text).length <;> rfl

theorem readCachedText_eq : store.readCachedText path = (store path).bind parseBytes := by
  cases file : store path with
  | none => simp [TextStore.readCachedText, file]
  | some bytes =>
    cases decoded : decodeUtf8 bytes <;>
      simp [TextStore.readCachedText, TextStore.readText, file, parseBytes, decoded]

/-- The program of `read_cached_text` reads what the function on stores does. -/
theorem run_readCachedText : (readCachedText path).run TextStore.answer store =
    (.ok (store.readCachedText path), store) := by
  rw [readCachedText_eq]
  cases file : store path <;> simp [readCachedText, TextStore.answer, file]

/-- A text is read back from the cache exactly if it has no carriage return. -/
theorem readsBack_iff (line : '\n' ∉ fingerprint.toList ∧ '\r' ∉ fingerprint.toList) :
    (store.writeCachedText path fingerprint text).readCachedText path = some (fingerprint, text) ↔
      '\r' ∉ text.toList := by
  rw [readCachedText_eq, TextStore.writeCachedText, TextStore.writeText, Function.update_self,
    Option.bind_some, parseBytes_cachedText line, ← universalNewlines_eq_self, Option.some_inj,
    Prod.mk.injEq, and_iff_right rfl, ← String.toList_inj, String.toList_ofList]

end RoundTrip

/-- A text that itself looks like a header. -/
theorem readsBack_header : (TextStore.writeCachedText (fun _ => none) ⟨["cache", "a.txt"]⟩ "00ff"
      "fingerprint:00ff\nfirst\n\nsecond").readCachedText ⟨["cache", "a.txt"]⟩ =
    some ("00ff", "fingerprint:00ff\nfirst\n\nsecond") :=
  (readsBack_iff (by decide +kernel)).mpr (by decide +kernel)

theorem not_readsBack_crlf : ¬ ∀ (store : TextStore) (path : PurePath) (fingerprint text : String),
    '\n' ∉ fingerprint.toList ∧ '\r' ∉ fingerprint.toList →
      (store.writeCachedText path fingerprint text).readCachedText path =
        some (fingerprint, text) := by
  intro all
  exact absurd ((readsBack_iff (by decide +kernel)).mp
    (all (fun _ => none) ⟨["cache", "a.txt"]⟩ "00ff" "first\r\nsecond" (by decide +kernel)))
    (by decide +kernel)

end Kreuzberg

end OmniMemory
