/-! Pages that the service gives in place of an answer. -/

namespace CodeColor.Service

def noticePage (title rest : String) : String :=
  "<!doctype html>\n<html lang=en>\n<title>" ++ title ++ "</title>\n" ++ rest

def addressChar (c : Char) : List Char :=
  if c = '&' then "&amp;".toList
  else if c = '<' then "&lt;".toList
  else if c = '>' then "&gt;".toList
  else if c = '\x27' then "&#39;".toList
  else if c = '"' then "&#34;".toList
  else [c]

def redirectPage (address : List Char) : String :=
  let shown := String.ofList (address.flatMap addressChar)
  noticePage "Redirecting..."
    ("<h1>Redirecting...</h1>\n" ++
      "<p>You should be redirected automatically to the target URL: <a href=\"" ++ shown ++ "\">" ++
      shown ++ "</a>. If not, click the link.\n")

def badRequestPage : String :=
  noticePage "400 Bad Request"
    ("<h1>Bad Request</h1>\n" ++
      "<p>The browser (or proxy) sent a request that this server could not understand.</p>\n")

def failurePage : String :=
  noticePage "500 Internal Server Error"
    ("<h1>Internal Server Error</h1>\n" ++
      "<p>The server encountered an internal error and was unable to complete your request. " ++
      "Either the server is overloaded or there is an error in the application.</p>\n")

end CodeColor.Service
