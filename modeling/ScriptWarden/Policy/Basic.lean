/-!
# Policies

Which modules, builtins, functions and attributes a guest script may not name, which packages are
installed, and which directories its file operations may touch. A module name matches an entry
when it is that entry or lies below it, dot by dot.
-/

namespace ScriptWarden

/-- What a script may and may not name. -/
structure Policy where
  /-- Modules that may not be imported, with everything below them. -/
  blockedModules : List String
  /-- Builtins that may not be called or named. -/
  blockedBuiltins : List String
  /-- Dotted functions that may not be called or named. -/
  blockedFunctions : List String
  /-- Modules that may be imported, with everything below them, whatever else is blocked. -/
  allowedModules : List String
  /-- Installed packages, which are no sibling scripts. -/
  thirdPartyModules : List String
  /-- Attributes that reach into the interpreter. -/
  suspiciousAttributes : List String
  /-- Directories that file operations may touch; none listed means the scripts directory. -/
  allowedPaths : List String
deriving DecidableEq, Repr

/-- The policy of an empty configuration. -/
def Policy.standard : Policy where
  blockedModules := [
    "socket", "socketserver", "ssl", "urllib", "http", "ftplib", "poplib", "imaplib", "smtplib",
    "telnetlib", "xmlrpc", "ipaddress", "asyncio", "aiohttp", "requests", "httpx", "urllib3",
    "websocket", "websockets", "paramiko", "fabric", "pycurl", "tornado", "twisted", "flask",
    "django", "fastapi", "bottle", "cherrypy", "sqlite3", "dbm", "shelve", "psycopg2", "pymysql",
    "mysql", "pymongo", "redis", "sqlalchemy", "peewee", "cx_Oracle", "pyodbc", "subprocess",
    "popen2", "commands", "pexpect", "pty", "importlib", "imp", "runpy", "code", "codeop",
    "compileall", "py_compile", "ast", "dis", "inspect", "types", "multiprocessing",
    "concurrent", "_thread", "threading", "sched", "resource", "sysconfig", "platform", "ctypes",
    "cffi", "pickle", "cPickle", "marshal", "dill", "cloudpickle"]
  blockedBuiltins := [
    "eval", "exec", "compile", "__import__", "globals", "locals", "vars", "dir", "getattr",
    "setattr", "delattr", "hasattr", "breakpoint", "memoryview", "bytearray"]
  blockedFunctions := [
    "os.system", "os.popen", "os.spawn", "os.spawnl", "os.spawnle", "os.spawnlp", "os.spawnlpe",
    "os.spawnv", "os.spawnve", "os.spawnvp", "os.spawnvpe", "os.exec", "os.execl", "os.execle",
    "os.execlp", "os.execlpe", "os.execv", "os.execve", "os.execvp", "os.execvpe", "os.fork",
    "os.forkpty", "os.kill", "os.killpg", "os.plock", "os.startfile"]
  allowedModules := [
    "RPi", "gpiozero", "pigpio", "RPIO", "wiringpi", "spidev", "smbus", "smbus2"]
  thirdPartyModules := [
    "numpy", "PIL", "cv2", "pygame", "serial", "board"]
  suspiciousAttributes := [
    "__class__", "__bases__", "__mro__", "__subclasses__", "__globals__", "__code__",
    "__builtins__", "__import__", "__getattribute__", "__reduce__", "__reduce_ex__"]
  allowedPaths := []

instance : Inhabited Policy := ⟨Policy.standard⟩

/-- Whether a dotted name is an entry or lies below it. -/
def isAtOrBelow (name entry : String) : Bool :=
  name == entry || (entry.toList ++ ['.']).isPrefixOf name.toList

namespace Policy

/-- Whether a module may not be imported. -/
def isBlockedModule (p : Policy) (module : String) : Bool :=
  !module.isEmpty && !p.allowedModules.any (isAtOrBelow module) &&
    p.blockedModules.any (isAtOrBelow module)

/-- Whether a builtin may not be named. -/
def isBlockedBuiltin (p : Policy) (name : String) : Bool := p.blockedBuiltins.contains name

/-- Whether a dotted function may not be named. -/
def isBlockedFunction (p : Policy) (name : String) : Bool := p.blockedFunctions.contains name

/-- Whether an attribute reaches into the interpreter. -/
def isSuspiciousAttribute (p : Policy) (name : String) : Bool :=
  p.suspiciousAttributes.contains name

/-- Whether a module is installed rather than a sibling script. -/
def isKnownPackage (p : Policy) (module : String) : Bool :=
  p.thirdPartyModules.contains module || p.allowedModules.any (isAtOrBelow module)

end Policy

-- ---------------------------------------------------------------------------
-- The standard library
-- ---------------------------------------------------------------------------

/-- The top-level modules that every interpreter brings along. A bare import of one of them names no
sibling script. -/
def standardModules : List String := [
  "__future__", "_thread", "abc", "aifc", "argparse", "array", "ast", "asynchat", "asyncio",
  "asyncore", "atexit", "audioop", "base64", "bdb", "binascii", "binhex", "bisect", "builtins",
  "bz2", "cProfile", "calendar", "cgi", "cgitb", "chunk", "cmath", "cmd", "code", "codecs",
  "codeop", "collections", "colorsys", "compileall", "concurrent", "configparser", "contextlib",
  "contextvars", "copy", "copyreg", "crypt", "csv", "ctypes", "curses", "dataclasses",
  "datetime", "dbm", "decimal", "difflib", "dis", "distutils", "doctest", "email", "encodings",
  "enum", "errno", "faulthandler", "fcntl", "filecmp", "fileinput", "fnmatch", "fractions",
  "ftplib", "functools", "gc", "getopt", "getpass", "gettext", "glob", "graphlib", "grp", "gzip",
  "hashlib", "heapq", "hmac", "html", "http", "imaplib", "imghdr", "imp", "importlib", "inspect",
  "io", "ipaddress", "itertools", "json", "keyword", "lib2to3", "linecache", "locale", "logging",
  "lzma", "mailbox", "mailcap", "marshal", "math", "mimetypes", "mmap", "modulefinder",
  "multiprocessing", "netrc", "nis", "nntplib", "numbers", "operator", "optparse", "os",
  "ossaudiodev", "pathlib", "pdb", "pickle", "pickletools", "pipes", "pkgutil", "platform",
  "plistlib", "poplib", "posix", "posixpath", "pprint", "profile", "pstats", "pty", "pwd",
  "py_compile", "pyclbr", "pydoc", "queue", "quopri", "random", "re", "readline", "reprlib",
  "resource", "rlcompleter", "runpy", "sched", "secrets", "select", "selectors", "shelve",
  "shlex", "shutil", "signal", "site", "smtpd", "smtplib", "sndhdr", "socket", "socketserver",
  "spwd", "sqlite3", "ssl", "stat", "statistics", "string", "stringprep", "struct", "subprocess",
  "sunau", "symtable", "sys", "sysconfig", "syslog", "tabnanny", "tarfile", "telnetlib",
  "tempfile", "termios", "test", "textwrap", "threading", "time", "timeit", "tkinter", "token",
  "tokenize", "tomllib", "trace", "traceback", "tracemalloc", "tty", "turtle", "turtledemo",
  "types", "typing", "unicodedata", "unittest", "urllib", "uu", "uuid", "venv", "warnings",
  "wave", "weakref", "webbrowser", "winreg", "winsound", "wsgiref", "xdrlib", "xml", "xmlrpc",
  "zipapp", "zipfile", "zipimport", "zlib", "zoneinfo"]

/-- Whether a module belongs to the standard library. -/
def isStandardModule (module : String) : Bool := standardModules.contains module

end ScriptWarden
