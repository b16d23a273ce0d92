/-
  The static catalogs of completions, for the query editor and for the console, in the order in which
  completions of the same score are offered.
-/
import FluentQuery.Completion.Basic

namespace FluentQuery.Catalog

/-- A name that appends its arguments, offered under itself. -/
def form (trigger suggestion : Text) (cursorOffset : Int) (description : Text) : Completion :=
  { trigger, suggestion, cursorOffset, description, fullForm := some trigger }

/-- A method, offered behind a point. -/
def method (name suggestion : Text) (cursorOffset : Int) (description : Text) : Completion :=
  form ('.' :: name) suggestion cursorOffset description

/-- A trigger that grows into a piece of code. -/
def phrase (trigger suggestion : Text) (cursorOffset : Int) (description : Text) : Completion :=
  { trigger, suggestion, cursorOffset, description }

/-- A word that stands for itself. -/
def word (kind : CompletionKind) (trigger description : Text) (keywords : List Text) : Completion :=
  { trigger, description, kind := some kind, keywords }

/-- A trigger in whose place a template is inserted. -/
def snippet (trigger text : Text) (cursorOffset : Int) (description : Text) (keywords : List Text)
    (priority : Int) : Completion :=
  { trigger, suggestion := ' ' :: text, cursorOffset, description, kind := some .snippet, priority,
    keywords, replacement := some text }

/-- The references at the database root. -/
def root : List Completion :=
  [form "db.collection" "('')" (-2) "Collection reference",
    form "db.doc" "('')" (-2) "Document reference"]

/-- The methods that build a query. -/
def queryMethods : List Completion :=
  [method "collection" "('')" (-2) "Sub-collection",
    method "collectionGroup" "('')" (-2) "Collection group",
    method "doc" "('')" (-2) "Document reference",
    method "where" "('', '==', '')" (-11) "Where clause",
    method "orderBy" "('', 'asc')" (-7) "Order by",
    method "limit" "(50)" (-1) "Limit results",
    method "limitToLast" "(10)" (-1) "Limit to last",
    method "offset" "(0)" (-1) "Offset (pagination)",
    method "startAt" "()" (-1) "Start at cursor",
    method "startAfter" "()" (-1) "Start after cursor",
    method "endAt" "()" (-1) "End at cursor",
    method "endBefore" "()" (-1) "End before cursor",
    method "select" "('')" (-2) "Select fields"]

/-- The methods that read. -/
def reads : List Completion :=
  [method "get" "()" 0 "Get documents",
    method "stream" "()" 0 "Stream documents",
    method "onSnapshot" "((snapshot) => \x7b\n  \n\x7d)" (-3) "Real-time listener",
    method "count" "()" 0 "Count documents"]

/-- The methods that write. -/
def writes : List Completion :=
  [method "add" "(\x7b\x7d)" (-2) "Add document",
    method "set" "(\x7b\x7d)" (-2) "Set document",
    method "update" "(\x7b\x7d)" (-2) "Update document",
    method "delete" "()" (-1) "Delete document"]

/-- The methods that list what there is. -/
def listings : List Completion :=
  [method "withConverter" "()" (-1) "With converter",
    method "listDocuments" "()" 0 "List documents",
    method "listCollections" "()" 0 "List collections"]

/-- Batches and transactions. -/
def batches : List Completion :=
  [form "batch" " = db.batch()" 0 "Batch write",
    method "batch" "()" 0 "Create batch",
    form "transaction" " = await db.runTransaction(async (t) => \x7b\n  \n\x7d)" (-3)
      "Transaction",
    method "runTransaction" "(async (transaction) => \x7b\n  \n\x7d)" (-3) "Run transaction"]

/-- The values that the database computes when it writes. -/
def fieldValues : List Completion :=
  [form "FieldValue.serverTimestamp" "()" 0 "Server timestamp",
    form "FieldValue.increment" "(1)" (-1) "Increment field",
    form "FieldValue.arrayUnion" "([])" (-2) "Array union",
    form "FieldValue.arrayRemove" "([])" (-2) "Array remove",
    form "FieldValue.delete" "()" 0 "Delete field"]

/-- The members of snapshots. -/
def snapshots : List Completion :=
  [method "data" "()" 0 "Get document data",
    method "exists" "" 0 "Check if document exists",
    method "id" "" 0 "Get document ID",
    method "ref" "" 0 "Get document reference",
    method "docs" "" 0 "Get documents array",
    method "empty" "" 0 "Check if snapshot is empty",
    method "size" "" 0 "Get snapshot size",
    method "forEach" "(doc => \x7b\n  \n\x7d)" (-3) "Iterate documents",
    method "map" "(doc => doc.data())" (-1) "Map documents"]

/-- Everything that names a part of the database interface. -/
def database : List Completion :=
  root ++ queryMethods ++ reads ++ writes ++ listings ++ batches ++ fieldValues ++ snapshots

/-- Pieces of everyday code. -/
def boilerplate : List Completion :=
  [phrase "async" " function run() \x7b\n  \n\x7d" (-2) "Async run function",
    phrase "asyncfn" " async () => \x7b\n  \n\x7d" (-2) "Async arrow function",
    phrase "await" " db.collection('').get()" (-8) "Await collection get",
    phrase "awaitDoc" " db.doc('').get()" (-8) "Await doc get",
    phrase "const" " snapshot = await " 0 "Const snapshot",
    phrase "snap" "shot.docs.map(doc => (\x7b id: doc.id, ...doc.data() \x7d))" 0
      "Map snapshot docs",
    phrase "foreach" "snapshot.forEach(doc => \x7b\n  console.log(doc.id, doc.data());\n\x7d)" 0
      "ForEach docs",
    phrase "return snap" "shot.docs.map(doc => (\x7b id: doc.id, ...doc.data() \x7d))" 0
      "Return mapped docs",
    phrase "return doc" "s" 0 "Return docs",
    phrase "trycatch" "try \x7b\n  \n\x7d catch (error) \x7b\n  console.error(error);\n\x7d" (-40)
      "Try-catch block",
    phrase "log" "console.log()" (-1) "Console log",
    phrase "console." "log()" (-1) "Console log",
    phrase "JSON.str" "ingify(, null, 2)" (-10) "JSON stringify",
    phrase "JSON.par" "se()" (-1) "JSON parse"]

/-- Whole queries to fill in. -/
def templates : List Completion :=
  [snippet "find" "const snapshot = await db.collection('').where('', '==', '').limit(50).get()"
      (-35) "Template: filter + limit + get" ["query", "where", "limit"] 18,
    snippet "paginate"
      "const snapshot = await db.collection('').orderBy('').startAfter(lastDoc).limit(25).get()"
      (-52) "Template: pagination (startAfter)" ["page", "cursor", "orderBy"] 18,
    snippet "count" "const countSnapshot = await db.collection('').count().get()" (-21)
      "Template: count documents" ["aggregate"] 16,
    snippet "doc" "const docSnap = await db.doc('').get()" (-9) "Template: get document"
      ["get", "document"] 16,
    snippet "create" "await db.collection('').add(\x7b\x7d)" (-2) "Template: add document"
      ["insert", "add"] 14,
    snippet "update" "await db.doc('').update(\x7b\x7d)" (-2) "Template: update document"
      ["patch"] 14,
    snippet "delete" "await db.doc('').delete()" (-2) "Template: delete document" ["remove"] 14,
    snippet "group" "const snapshot = await db.collectionGroup('').where('', '==', '').get()"
      (-30) "Template: collection group query" ["collectionGroup", "query"] 16,
    snippet "compound"
      "const snapshot = await db.collection('').where('', '==', '').where('', '==', '').get()"
      (-30) "Template: compound where" ["where", "and"] 15,
    snippet "array"
      "const snapshot = await db.collection('').where('', 'array-contains', '').get()" (-30)
      "Template: array-contains query" ["array-contains", "filter"] 15,
    snippet "order" "const snapshot = await db.collection('').orderBy('').limit(25).get()" (-24)
      "Template: order + limit" ["orderBy", "limit"] 14,
    snippet "batch"
      "const batch = db.batch();\nconst ref = db.collection('').doc();\nbatch.set(ref, \x7b\x7d);\nawait batch.commit();"
      (-47) "Template: batch write" ["batch", "write"] 14,
    snippet "transaction"
      "await db.runTransaction(async (t) => \x7b\n  const ref = db.doc('');\n  const snap = await t.get(ref);\n  if (!snap.exists) return;\n  t.update(ref, \x7b\x7d);\n\x7d);"
      (-20) "Template: transaction" ["transaction", "runTransaction"] 14,
    snippet "timestamp"
      "await db.doc('').update(\x7b updatedAt: FieldValue.serverTimestamp() \x7d)" (-2)
      "Template: server timestamp update" ["FieldValue", "serverTimestamp"] 13]

/-- The completions of the query editor. -/
def editor : List Completion :=
  database ++ boilerplate ++ templates

/-- The words and templates of the console alone. -/
def consoleWords : List Completion :=
  [word .keyword "help" "Help" ["?", "commands"],
    word .keyword "clear" "Clear" ["reset"],
    snippet "find" "db.collection('').where('', '==', '').limit(10).get()" (-32)
      "Template: filter + limit + get" ["query", "where"] 0,
    snippet "doc" "db.doc('').get()" (-6) "Template: get document" ["get", "document"] 0,
    snippet "count" "db.collection('').count().get()" (-15) "Template: count documents"
      ["aggregate"] 0,
    snippet "group" "db.collectionGroup('').where('', '==', '').get()" (-24)
      "Template: collection group query" ["collectionGroup", "query"] 0,
    snippet "array" "db.collection('').where('', 'array-contains', '').get()" (-24)
      "Template: array-contains query" ["array-contains", "filter"] 0,
    snippet "order" "db.collection('').orderBy('').limit(10).get()" (-18)
      "Template: order + limit" ["orderBy", "limit"] 0,
    snippet "whereIn" "db.collection('').where('', 'in', []).get()" (-10) "Template: where in"
      ["in", "filter"] 0]

/-- The completions of the console. -/
def console : List Completion :=
  root ++ queryMethods ++ [method "get" "()" 0 "Get documents"] ++ writes ++
    [method "count" "()" 0 "Count documents"] ++ listings ++ consoleWords

/-- The comparison operators. -/
def operators : List Completion :=
  [word .operator "==" "Equals" ["eq", "equals"],
    word .operator "!=" "Not equal" ["neq", "not"],
    word .operator ">=" "Greater or equal" [],
    word .operator "<=" "Less or equal" [],
    word .operator ">" "Greater than" [],
    word .operator "<" "Less than" [],
    word .operator "array-contains" "Array contains value" [],
    word .operator "array-contains-any" "Array contains any" [],
    word .operator "in" "Value in array" [],
    word .operator "not-in" "Value not in array" []]

/-- The directions of an ordering. -/
def directions : List Completion :=
  [word .direction "asc" "Ascending order" ["ascending", "up"],
    word .direction "desc" "Descending order" ["descending", "down"]]

end FluentQuery.Catalog
