/-
# MediaArchiver.Store.SqlTexts -- the texts of the statements in which names and messages stand

The store puts its statements together as text, and paths and the encoder's messages come from outside.
`ExecSQL::escape` doubles their quotes. What the database reads in the quotes is then what the store was
given, and the rest of the statement is what it is without it (`escape_round_trip`).
-/
import MediaArchiver.Lib.SqlText
import MediaArchiver.Store.SQLite

namespace MediaArchiver

open Lib (SqlPart SqlToken readLiteral lex Separated double)

namespace ExecSQL

/-- `regex_replace` of `'` by `''`. -/
def escape (s : Text) : Text := double '\'' s

example : escape "this 'is' string".toList = "this ''is'' string".toList := by decide

/-- A time as `put_time` writes it. -/
def Stamp := { t : Text // '\'' ∉ t }

/-- A number as `to_string` writes it. -/
def number (n : Int) : Text := (toString n).toList

theorem quote_not_mem_natNumber (n : Nat) : '\'' ∉ (toString n).toList := by
  intro h
  have hdigit : ('\'' : Char).isDigit = true := by
    apply Nat.isDigit_of_mem_toDigits (b := 10) (n := n) (by decide) (by decide)
    simpa using h
  exact absurd hdigit (by decide)

/-- A number has no quote in it. -/
theorem quote_not_mem_number (n : Int) : '\'' ∉ number n := by
  cases n with
  | ofNat n => exact quote_not_mem_natNumber n
  | negSucc n =>
    show '\'' ∉ ("-" ++ toString (n + 1)).toList
    rw [String.toList_append]
    exact List.not_mem_append (by decide) (quote_not_mem_natNumber (n + 1))

end ExecSQL

open ExecSQL (escape Stamp number)

/-- The statements that have a path or a message in them. -/
inductive SqlStatement where
  /-- The look-up of a source in `addFile`. -/
  | selectSource (path : Path)
  | insertSource (src : BasicFileInfo)
  /-- The look-up of an archive in `addFile`. -/
  | selectArchive (path : Path)
  | insertArchive (srcId : Nat) (path : Path)
  /-- The two statements of `addEncodedFile`. -/
  | updateResult (file : EncodedFile) (now : Stamp)
  | insertEncoded (file : EncodedFile)

namespace SqlStatement

/-- The comment of `addEncodedFile`. -/
def commentText (file : EncodedFile) : Text :=
  if file.error ≠ [] then "'".toList ++ escape file.error ++ "'".toList else "NULL".toList

/-- What is put into the stream, one after the other. -/
def pieces : SqlStatement → List Text
  | .selectSource path =>
      [("select sourcefiles.id,queue.status,archives.path from sourcefiles left join queue using (id) "
          ++ "left join archives using(id) where sourcefiles.path=" ++ "'").toList,
        escape path, "'".toList]
  | .insertSource src =>
      [("INSERT INTO sourcefiles (path,size) VALUES(" ++ "'").toList, escape src.fileName,
        ("'" ++ ",").toList, number src.fileSize, ")".toList]
  | .selectArchive path =>
      [("select archives.id,queue.status from archives left join queue using (id) "
          ++ "where archives.path=" ++ "'").toList,
        escape path, "'".toList]
  | .insertArchive srcId path =>
      ["INSERT INTO archives (id,path) VALUES (".toList, number srcId, ("," ++ "'").toList, escape path,
        ("'" ++ ") on conflict do nothing;").toList]
  | .updateResult file now =>
      ["update queue set status=".toList, number file.result.toInt, ",start=".toList,
        "'".toList, now.1, "'".toList, ",comment=".toList, commentText file, " where id=".toList,
        number file.originalFileId]
  | .insertEncoded file =>
      ["INSERT INTO archives (id,path) VALUES (".toList, number file.originalFileId, ("," ++ "'").toList,
        escape file.fileName, ("'" ++ ") on conflict do nothing").toList]

/-- The text that is handed to the database. -/
def text (st : SqlStatement) : Text := st.pieces.flatten

/-- The comment as it is meant. -/
def commentPart (file : EncodedFile) : SqlPart Char :=
  if file.error ≠ [] then .quoted file.error else .fixed "NULL".toList

/-- The statement as it is meant: fixed text and numbers, and the strings. -/
def parts : SqlStatement → List (SqlPart Char)
  | .selectSource path =>
      [.fixed ("select sourcefiles.id,queue.status,archives.path from sourcefiles left join queue using (id) "
          ++ "left join archives using(id) where sourcefiles.path=").toList, .quoted path]
  | .insertSource src =>
      [.fixed "INSERT INTO sourcefiles (path,size) VALUES(".toList, .quoted src.fileName,
        .fixed (",".toList ++ number src.fileSize ++ ")".toList)]
  | .selectArchive path =>
      [.fixed ("select archives.id,queue.status from archives left join queue using (id) "
          ++ "where archives.path=").toList, .quoted path]
  | .insertArchive srcId path =>
      [.fixed ("INSERT INTO archives (id,path) VALUES (".toList ++ number srcId ++ ",".toList),
        .quoted path, .fixed ") on conflict do nothing;".toList]
  | .updateResult file now =>
      [.fixed ("update queue set status=".toList ++ number file.result.toInt ++ ",start=".toList),
        .quoted now.1, .fixed ",comment=".toList, commentPart file,
        .fixed (" where id=".toList ++ number file.originalFileId)]
  | .insertEncoded file =>
      [.fixed ("INSERT INTO archives (id,path) VALUES (".toList ++ number file.originalFileId
        ++ ",".toList), .quoted file.fileName, .fixed ") on conflict do nothing".toList]

theorem render_quoted (s : Text) :
    (SqlPart.quoted s).render '\'' = "'".toList ++ escape s ++ "'".toList := rfl

theorem render_fixed (t : Text) : (SqlPart.fixed t).render '\'' = t := rfl

theorem render_commentPart (file : EncodedFile) :
    (commentPart file).render '\'' = commentText file := by
  unfold commentPart commentText
  split <;> rfl

/-- A time has no quote that were to be doubled. -/
theorem escape_stamp (now : Stamp) : escape now.1 = now.1 := Lib.double_of_not_mem now.2

/-- The text is the parts, one behind the other. -/
theorem text_eq_render (st : SqlStatement) : st.text = st.parts.flatMap (SqlPart.render '\'') := by
  cases st <;> simp only [text, pieces, parts, List.flatten_cons, List.flatten_nil, List.flatMap_cons,
    List.flatMap_nil, render_quoted, render_fixed, render_commentPart, escape_stamp, String.toList_append,
    List.append_assoc, List.append_nil]

/-- The fixed parts have no quotes in them. -/
theorem separated_parts (st : SqlStatement) : Separated '\'' st.parts := by
  have hnumber := ExecSQL.quote_not_mem_number
  cases st with
  | selectSource path => exact ⟨by decide +kernel, trivial⟩
  | insertSource src =>
    refine ⟨by decide +kernel, List.cons_ne_nil _ _, ?_, trivial⟩
    simp [hnumber]
  | selectArchive path => exact ⟨by decide +kernel, trivial⟩
  | insertArchive srcId path =>
    refine ⟨?_, List.cons_ne_nil _ _, by decide +kernel, trivial⟩
    exact List.not_mem_append (List.not_mem_append (by decide +kernel) (hnumber _)) (by decide)
  | insertEncoded file =>
    refine ⟨?_, List.cons_ne_nil _ _, by decide +kernel, trivial⟩
    exact List.not_mem_append (List.not_mem_append (by decide +kernel) (hnumber _)) (by decide)
  | updateResult file now =>
    have hid : '\'' ∉ " where id=".toList ++ number file.originalFileId :=
      List.not_mem_append (by decide) (hnumber _)
    have hend : Separated '\''
        [commentPart file, .fixed (" where id=".toList ++ number file.originalFileId)] := by
      unfold commentPart
      split
      · exact ⟨List.cons_ne_nil _ _, hid, trivial⟩
      · exact ⟨by decide, hid, trivial⟩
    refine ⟨?_, List.cons_ne_nil _ _, by decide, hend⟩
    exact List.not_mem_append (List.not_mem_append (by decide +kernel) (hnumber _)) (by decide)

/-- What stands between the quotes is read back, what follows is left as it is, and so every statement is read
as it is meant. -/
theorem escape_round_trip (s t : Text) (h : t.head? ≠ some '\'') :
    readLiteral '\'' (escape s ++ '\'' :: t) = some (s, t) ∧
      ∀ st : SqlStatement, lex '\'' st.text = some (st.parts.flatMap SqlPart.tokens) := by
  refine ⟨Lib.readLiteral_double s h, fun st => ?_⟩
  rw [text_eq_render]
  exact Lib.lex_render st.separated_parts

/-- A name that looks like the end of a statement. -/
theorem escape_round_trip_injection :
    readLiteral '\'' (escape "x'; drop table queue; --".toList ++ '\'' :: ",1)".toList)
        = some ("x'; drop table queue; --".toList, ",1)".toList) ∧
      ∀ st : SqlStatement, lex '\'' st.text = some (st.parts.flatMap SqlPart.tokens) :=
  escape_round_trip _ _ (by decide)

end SqlStatement

end MediaArchiver
