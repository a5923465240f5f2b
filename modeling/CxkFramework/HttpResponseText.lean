import CxkFramework.HttpClientParser
import CxkFramework.HttpRequestText

/-!
# Responses as text

`HttpResponse::dump`, and `sendResponse`, which writes what it prints.
-/

namespace CxkFramework

open HttpParser

namespace HttpResponse

/-- `HTTP_STATUS_MAP`. -/
def statuses : List (Int × String) := [
  (100, "Continue"),
  (101, "Switching Protocols"),
  (102, "Processing"),
  (200, "OK"),
  (201, "Created"),
  (202, "Accepted"),
  (203, "Non-Authoritative Information"),
  (204, "No Content"),
  (205, "Reset Content"),
  (206, "Partial Content"),
  (207, "Multi-Status"),
  (208, "Already Reported"),
  (226, "IM Used"),
  (300, "Multiple Choices"),
  (301, "Moved Permanently"),
  (302, "Found"),
  (303, "See Other"),
  (304, "Not Modified"),
  (305, "Use Proxy"),
  (307, "Temporary Redirect"),
  (308, "Permanent Redirect"),
  (400, "Bad Request"),
  (401, "Unauthorized"),
  (402, "Payment Required"),
  (403, "Forbidden"),
  (404, "Not Found"),
  (405, "Method Not Allowed"),
  (406, "Not Acceptable"),
  (407, "Proxy Authentication Required"),
  (408, "Request Timeout"),
  (409, "Conflict"),
  (410, "Gone"),
  (411, "Length Required"),
  (412, "Precondition Failed"),
  (413, "Payload Too Large"),
  (414, "URI Too Long"),
  (415, "Unsupported Media Type"),
  (416, "Range Not Satisfiable"),
  (417, "Expectation Failed"),
  (421, "Misdirected Request"),
  (422, "Unprocessable Entity"),
  (423, "Locked"),
  (424, "Failed Dependency"),
  (426, "Upgrade Required"),
  (428, "Precondition Required"),
  (429, "Too Many Requests"),
  (431, "Request Header Fields Too Large"),
  (451, "Unavailable For Legal Reasons"),
  (500, "Internal Server Error"),
  (501, "Not Implemented"),
  (502, "Bad Gateway"),
  (503, "Service Unavailable"),
  (504, "Gateway Timeout"),
  (505, "HTTP Version Not Supported"),
  (506, "Variant Also Negotiates"),
  (507, "Insufficient Storage"),
  (508, "Loop Detected"),
  (510, "Not Extended"),
  (511, "Network Authentication Required")]

/-- `HttpStatusToString`. -/
def statusToChars (s : Int) : List UInt8 :=
  match statuses.find? fun n => n.1 = s with
  | some n => chars n.2
  | none => chars "<unknown>"

/-- `dump`. Nothing else here reads `m_close` and `m_websocket`, so they come as arguments. -/
def dump (rsp : HttpResponse) (close websocket : Bool) : List UInt8 :=
  (chars "HTTP/" ++ decimal (rsp.version >>> 4).toNat ++ chars "."
      ++ decimal (rsp.version &&& 0x0F).toNat ++ 32 :: decimal (rsp.status % 2 ^ 32).toNat
      ++ 32 :: (if rsp.reason = [] then statusToChars rsp.status else rsp.reason) ++ crlf)
    ++ HttpRequest.fields websocket rsp.headers
    ++ (if websocket then []
      else HttpRequest.field (chars "connection")
        (if close then chars "close" else chars "keep-alive"))
    ++ (if rsp.body = [] then crlf
      else HttpRequest.field (chars "content-length") (decimal rsp.body.length) ++ crlf ++ rsp.body)

def toString (rsp : HttpResponse) (close websocket : Bool) : List UInt8 := rsp.dump close websocket

end HttpResponse

namespace HttpSession

/-- `sendResponse`; no result when the loop of `writeFixSize` has none. -/
def sendResponse (rsp : HttpResponse) (close websocket : Bool) (rounds : Nat) (s : Stream) :
    Option (Int × Stream) :=
  s.writeFixSize rounds (rsp.toString close websocket)

end HttpSession

end CxkFramework
