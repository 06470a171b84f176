import OmniMemory.Lib.Regex

/-! `ErrorSanitizer`: the patterns of sensitive texts, and the message of an error in which what they
match is replaced, one pattern after the other. -/

namespace OmniMemory

open Regular

namespace Sanitizer

/-- A `str`, as its characters. -/
abbrev Text := List Char

inductive SanitizationLevel where
  | minimal
  | standard
  | strict
  | audit

section Patterns

variable (A : Alphabet)

def letterOrDigit (c : Char) : Bool :=
  ('A' ≤ c && c ≤ 'Z') || ('a' ≤ c && c ≤ 'z') || ('0' ≤ c && c ≤ '9')

def hexDigit (c : Char) : Bool :=
  ('0' ≤ c && c ≤ '9') || ('a' ≤ c && c ≤ 'f') || ('A' ≤ c && c ≤ 'F')

def isQuote (c : Char) : Bool := c == '\'' || c == '"'

/-- `[^\s'"]`. -/
def unquoted (c : Char) : Bool := !(A.space c || isQuote c)

/-- `\s*[=:]\s*['"]?([^\s'"]+)`. -/
def assignedValue : Regex :=
  .sequence [.star (.set A.space), .set fun c => c == '=' || c == ':', .star (.set A.space),
    .opt (.set isQuote), .plus (.set (unquoted A))]

/-- A word at whose start a word begins, and what is assigned to it. -/
def assignmentPattern (name : Regex) : Regex := .seq .boundary (.seq name (assignedValue A))

/-- A word at whose start a word begins, and the word after it. -/
def schemePattern (name : String) : Regex :=
  .sequence [.boundary, A.literal name, .plus (.set A.space), .plus (.set fun c => !A.space c)]

def apiKeyName : Regex :=
  .sequence [A.literal "api", .opt (.set fun c => c == '_' || c == '-'), A.literal "key"]

/-- `_CREDENTIAL_PATTERNS`. In the last one `\b` comes before `asic`. -/
def credentialPatterns : List Regex :=
  [assignmentPattern A (A.literal "password"), assignmentPattern A (apiKeyName A),
   assignmentPattern A (A.literal "secret"), assignmentPattern A (A.literal "token"),
   assignmentPattern A (A.literal "auth"), schemePattern A "bearer", schemePattern A "asic"]

/-- `name://[^@]+@[^/]+/`, and what the path is. -/
def urlPattern (name : String) (path : Regex) : Regex :=
  .sequence [A.literal (name ++ "://"), .plus (.set fun c => c != '@'), .oneOf '@',
    .plus (.set fun c => c != '/'), .oneOf '/', path]

/-- `_CONNECTION_STRING_PATTERNS`. -/
def connectionStringPatterns : List Regex :=
  let notSpace : Regex := .set fun c => !A.space c
  [urlPattern A "postgresql" (.plus notSpace), urlPattern A "mysql" (.plus notSpace),
   urlPattern A "mongodb" (.plus notSpace), urlPattern A "redis" (.star notSpace)]

/-- `_IP_ADDRESS_PATTERNS`. -/
def ipAddressPatterns : List Regex :=
  let decimal : Regex := .set fun c => '0' ≤ c && c ≤ '9'
  [.sequence [.boundary, .exactly 3 (.seq (.between 1 3 decimal) (.oneOf '.')),
     .between 1 3 decimal, .opt (.seq (.oneOf ':') (.plus decimal)), .boundary],
   .sequence [.boundary, .exactly 7 (.seq (.between 1 4 (.set hexDigit)) (.oneOf ':')),
     .between 1 4 (.set hexDigit), .boundary]]

/-- `_FILE_PATH_PATTERNS`. -/
def filePathPatterns : List Regex :=
  [.sequence [.oneOf '/',
     .plus (.set fun c => letterOrDigit c || c == '/' || c == '_' || c == '-'),
     .opt (.seq (.oneOf '.') (.plus (.set letterOrDigit)))],
   .sequence [.set fun c => ('A' ≤ c && c ≤ 'Z') || ('a' ≤ c && c ≤ 'z'), .oneOf ':', .oneOf '\\',
     .oneOf '\\', .plus (.set fun c =>
       letterOrDigit c || c == '\\' || c == '.' || c == '_' || c == '-')]]

/-- `_PERSONAL_INFO_PATTERNS`. -/
def personalInfoPatterns : List Regex :=
  [.sequence [.boundary, .plus (.set fun c =>
       letterOrDigit c || c == '.' || c == '_' || c == '%' || c == '+' || c == '-'), .oneOf '@',
     .plus (.set fun c => letterOrDigit c || c == '.' || c == '-'), .oneOf '.',
     .atLeast 2 (.set fun c => ('A' ≤ c && c ≤ 'Z') || c == '|' || ('a' ≤ c && c ≤ 'z')),
     .boundary],
   .sequence [.boundary, A.digits 3, .oneOf '-', A.digits 2, .oneOf '-', A.digits 4, .boundary],
   .sequence [.boundary, A.digits 16, .boundary]]

/-- The patterns of `_SENSITIVE_PATTERNS`, category after category. -/
def sensitivePatterns : List Regex :=
  credentialPatterns A ++ connectionStringPatterns A ++ ipAddressPatterns ++ filePathPatterns ++
    personalInfoPatterns A

end Patterns

section Messages

variable (A : Alphabet)

/-- `pattern.sub(repl, sanitized)` for each of the patterns. -/
def subAll (repl : String) (patterns : List Regex) (message : Text) : Text :=
  patterns.foldl (fun sanitized pattern => pattern.sub A.word repl.toList sanitized) message

/-- `f"{error_type}: {sanitized}"`. -/
def withType (errorType sanitized : Text) : Text := errorType ++ ": ".toList ++ sanitized

def minimalSanitize (message errorType : Text) : Text :=
  withType errorType (subAll A "[REDACTED]" (credentialPatterns A) message)

def standardSanitize (message errorType : Text) (context : Option String) : Text :=
  let sanitized := subAll A "[REDACTED]" (credentialPatterns A) message
  let sanitized := subAll A "[REDACTED]" (connectionStringPatterns A) sanitized
  let sanitized :=
    if context = some "health_check" ∨ context = some "connection_pool" then
      subAll A "[IP:REDACTED]" ipAddressPatterns sanitized
    else if context = some "audit" ∨ context = some "security" then
      subAll A "[PII:REDACTED]" (personalInfoPatterns A) sanitized
    else sanitized
  withType errorType sanitized

def safeErrorTypes : List String :=
  ["ValueError", "TypeError", "AttributeError", "KeyError", "IndexError", "ImportError",
   "ModuleNotFoundError", "FileNotFoundError", "PermissionError", "TimeoutError",
   "ConnectionError", "HTTPError", "ValidationError"]

/-- `_strict_sanitize`, which returns nothing of the message that it sanitizes. -/
def strictSanitize (_message errorType : Text) : Text :=
  withType errorType "Connection/operation failed - [DETAILS_REDACTED]".toList

def auditSanitize (_message errorType : Text) : Text :=
  if String.ofList errorType ∈ safeErrorTypes then withType errorType "Operation failed".toList
  else "Exception: Operation failed - details suppressed for audit".toList

/-- `sanitize_error` of an exception with a name of its type and a message. -/
def sanitizeError (level : SanitizationLevel) (errorType message : Text)
    (context : Option String) : Text :=
  match level with
  | .minimal => minimalSanitize A message errorType
  | .standard => standardSanitize A message errorType context
  | .strict => strictSanitize message errorType
  | .audit => auditSanitize message errorType

/-- `_apply_patterns`. -/
def applyPatterns (text : Text) : Text := subAll A "[REDACTED]" (sensitivePatterns A) text

end Messages

end Sanitizer

end OmniMemory
